import Mathlib.Data.List.Nodup
import Mathlib.Tactic.Abel
import SnapYak.Machine.History

/-!
# Loaders

A loader answers requests for values that are known by keys. A value that it holds is handed out at
once. For any other one it issues a fetch, which is outstanding until it arrives or fails, in any
order; a value that arrives is kept and handed out. Values are never discarded.

Nothing prevents two fetches of one key at a time. They are harmless for what is handed out, and
there are none exactly when nobody asks for a value that is being fetched.

## Main definitions

* `Loader`, `Loader.machine` : loaders and their runs.
* `Loader.Patient` : no request for a value that is being fetched.

## Main results

* `Loader.exists_answered` : every request is answered once, waits, or has failed, and the answers
  have the right values.
* `Loader.not_mem_fetched` : a value that is kept is never fetched again.
* `Loader.nodup_fetched_iff` : the runs that fetch no value twice.
-/

/-- A loader of values `ν` with keys `κ`. Requests are in `ω`, answers in `β`. -/
structure Loader (κ ν ω β : Type*) where
  cache : κ → Option ν
  /-- The requests whose fetches are outstanding. -/
  pending : List ω
  /-- The answers, in the order in which they were given. -/
  answers : List β

namespace Loader

variable {κ ν ω β : Type*}

/-- What can happen to a loader. -/
inductive Event (ω : Type*)
  | request (w : ω)
  | arrive (n : ℕ)
  | fail (n : ℕ)

/-- A label that is not the failure of a fetch. -/
def Event.Succeeds : Event ω → Prop
  | .fail _ => False
  | _ => True

/-- The request of a label. -/
def Event.requested : Event ω → List ω
  | .request w => [w]
  | _ => []

/-- A loader that holds no value. -/
def empty : Loader κ ν ω β := ⟨fun _ => none, [], []⟩

/-- How requests are read and answered, and the values of the keys. -/
structure Service (κ ν ω β : Type*) where
  key : ω → κ
  value : κ → ν
  answer : ω → ν → β

variable [DecidableEq κ] (S : Service κ ν ω β)

/-- The answer to a request, with the value of its key. -/
def Service.respond (S : Service κ ν ω β) (w : ω) : β := S.answer w (S.value (S.key w))

/-- A request. -/
def request (s : Loader κ ν ω β) (w : ω) : Loader κ ν ω β :=
  match s.cache (S.key w) with
  | some v => { s with answers := s.answers ++ [S.answer w v] }
  | none => { s with pending := s.pending ++ [w] }

/-- The fetch of a request arrives. -/
def arrive (s : Loader κ ν ω β) (n : ℕ) (w : ω) : Loader κ ν ω β where
  cache := Function.update s.cache (S.key w) (some (S.value (S.key w)))
  pending := s.pending.eraseIdx n
  answers := s.answers ++ [S.respond w]

/-- All runs of a loader. -/
def machine : Machine (Loader κ ν ω β) (Event ω) where
  step s
    | .request w => some (s.request S w)
    | .arrive n => s.pending[n]?.map (s.arrive S n)
    | .fail n => s.pending[n]?.map fun _ => { s with pending := s.pending.eraseIdx n }

/-- The key that a label begins to fetch. -/
def fetched (s : Loader κ ν ω β) : Event ω → List κ
  | .request w => if (s.cache (S.key w)).isNone then [S.key w] else []
  | _ => []

/-- The request whose fetch fails. -/
def failed (s : Loader κ ν ω β) : Event ω → List ω
  | .fail n => s.pending[n]?.toList
  | _ => []

/-- Nobody asks for a value that is being fetched, unless it is kept by now. -/
def Patient (s : Loader κ ν ω β) : Event ω → Prop
  | .request w => s.cache (S.key w) = none → S.key w ∉ s.pending.map S.key
  | _ => True

variable {S} {s t : Loader κ ν ω β} {e : Event ω} {es : List (Event ω)}

/-- The ways a step can act. -/
inductive StepCases (S : Service κ ν ω β) (s : Loader κ ν ω β) :
    Event ω → Loader κ ν ω β → Prop
  | hit {w : ω} {v : ν} (hv : s.cache (S.key w) = some v) :
      StepCases S s (.request w) { s with answers := s.answers ++ [S.answer w v] }
  | miss {w : ω} (hnone : s.cache (S.key w) = none) :
      StepCases S s (.request w) { s with pending := s.pending ++ [w] }
  | arrive {n : ℕ} {w : ω} (hw : s.pending[n]? = some w) :
      StepCases S s (.arrive n) (s.arrive S n w)
  | fail {n : ℕ} {w : ω} (hw : s.pending[n]? = some w) :
      StepCases S s (.fail n) { s with pending := s.pending.eraseIdx n }

/-- There are no other ways. -/
theorem stepCases_of_step (h : (machine S).step s e = some t) : StepCases S s e t := by
  cases e with
  | request w =>
    obtain rfl := Option.some.inj h
    simp only [request]
    split
    · next v hv => exact .hit hv
    · next hnone => exact .miss hnone
  | arrive n =>
    obtain ⟨w, hw, rfl⟩ := Option.map_eq_some_iff.mp h
    exact .arrive hw
  | fail n =>
    obtain ⟨w, hw, rfl⟩ := Option.map_eq_some_iff.mp h
    exact .fail hw

/-! ### Answers -/

omit [DecidableEq κ] in
/-- What is taken out of a list is one of its elements. -/
theorem singleton_add_eraseIdx {l : List ω} {n : ℕ} {w : ω} (h : l[n]? = some w) :
    ({w} + ↑(l.eraseIdx n) : Multiset ω) = ↑l := by
  obtain ⟨hn, rfl⟩ := List.getElem?_eq_some_iff.mp h
  exact Multiset.coe_eq_coe.mpr (List.getElem_cons_eraseIdx_perm hn)

/-- The loader after the given requests, some of which have failed: those that are answered have
the values of their keys, and so have the keys in the cache. -/
structure Serves (S : Service κ ν ω β) (requests failures : List ω) (s : Loader κ ν ω β) :
    Prop where
  cache : ∀ k v, s.cache k = some v → v = S.value k
  answered : ∃ ws : List ω, s.answers = ws.map S.respond ∧
    (ws + s.pending + failures : Multiset ω) = requests

omit [DecidableEq κ] in
theorem serves_empty : Serves S [] [] (empty : Loader κ ν ω β) where
  cache _ _ h := nomatch h
  answered := ⟨[], rfl, rfl⟩

/-- A step answers a request, or moves it. -/
theorem Serves.step {requests failures : List ω} (hs : s.Serves S requests failures)
    (h : (machine S).step s e = some t) :
    t.Serves S (requests ++ e.requested) (failures ++ s.failed e) := by
  obtain ⟨hcache, ws, hanswers, hrequests⟩ := hs
  cases stepCases_of_step h with
  | @hit w v hv =>
    refine ⟨hcache, ws ++ [w], ?_, ?_⟩
    · rw [List.map_append, ← hanswers, hcache _ _ hv]
      rfl
    · simp only [failed, Event.requested, ← Multiset.coe_add, ← hrequests, Multiset.coe_nil]
      abel
  | @miss w hnone =>
    refine ⟨hcache, ws, hanswers, ?_⟩
    simp only [failed, Event.requested, ← Multiset.coe_add, ← hrequests, Multiset.coe_nil]
    abel
  | @arrive n w hw =>
    refine ⟨fun k v hv => ?_, ws ++ [w], ?_, ?_⟩
    · by_cases hk : k = S.key w
      · simp only [arrive, hk, Function.update_self] at hv
        rw [hk, Option.some.inj hv]
      · simp only [arrive, Function.update_of_ne hk] at hv
        exact hcache k v hv
    · rw [arrive, List.map_append, ← hanswers]
      rfl
    · simp only [arrive, failed, Event.requested, ← Multiset.coe_add, ← hrequests,
        ← singleton_add_eraseIdx hw, Multiset.coe_nil, Multiset.coe_singleton]
      abel
  | @fail n w hw =>
    refine ⟨hcache, ws, hanswers, ?_⟩
    simp only [failed, hw, Option.toList_some, Event.requested, ← Multiset.coe_add, ← hrequests,
      ← singleton_add_eraseIdx hw, Multiset.coe_nil, Multiset.coe_singleton]
    abel

/-- **Answers.** Every request of a run is answered once, waits for its fetch or has failed; all
answers have the values of their keys. -/
theorem exists_answered (ht : (machine S).run empty es = some t) :
    t.Serves S ((machine S).log (fun _ e => e.requested) empty es)
      ((machine S).log failed empty es) :=
  Machine.history_induction₂ (f := fun ws _ e => ws ++ e.requested)
    (g := fun ws s e => ws ++ failed s e)
    (I := fun s requests failures => Serves S requests failures s)
    (fun hs ht => hs.step ht) serves_empty ht

/-! ### Fetches -/

/-- A value that is kept stays. -/
theorem isSome_cache_step (h : (machine S).step s e = some t) {k : κ} (hk : (s.cache k).isSome) :
    (t.cache k).isSome := by
  cases stepCases_of_step h with
  | hit | miss | fail => exact hk
  | @arrive n w hw =>
    by_cases hkw : k = S.key w
    · simp [arrive, hkw]
    · simpa only [arrive, Function.update_of_ne hkw] using hk

omit [DecidableEq κ] in
/-- A step fetches only values that are not kept. -/
theorem cache_of_mem_fetched {k : κ} (hk : k ∈ s.fetched S e) : s.cache k = none := by
  cases e with
  | request w =>
    simp only [fetched] at hk
    split_ifs at hk with hnone
    · obtain rfl := List.mem_singleton.mp hk
      exact Option.isNone_iff_eq_none.mp hnone
    · exact nomatch hk
  | arrive | fail => exact nomatch hk

/-- **A value that is kept is never fetched again.** -/
theorem not_mem_fetched {k : κ} (hk : (s.cache k).isSome) (ht : (machine S).run s es = some t) :
    k ∉ (machine S).log (fetched S) s es := by
  induction es generalizing s with
  | nil => exact List.not_mem_nil
  | cons e es ih =>
    obtain ⟨u, hu, ht⟩ := Machine.run_cons_eq_some.mp ht
    rw [Machine.log_cons_of_step hu, List.mem_append, not_or]
    refine ⟨fun hmem => ?_, ih (isSome_cache_step hu hk) ht⟩
    rw [cache_of_mem_fetched hmem] at hk
    exact nomatch hk

/-- Without failures, the keys that were fetched are kept or are being fetched. -/
def Accounts (S : Service κ ν ω β) (s : Loader κ ν ω β) (ks : List κ) : Prop :=
  ∀ k, k ∈ ks ↔ (s.cache k).isSome ∨ k ∈ s.pending.map S.key

theorem Accounts.step {ks : List κ} (hs : Accounts S s ks) (he : e.Succeeds)
    (h : (machine S).step s e = some t) : Accounts S t (ks ++ s.fetched S e) := by
  intro k
  rw [List.mem_append, hs k]
  cases stepCases_of_step h with
  | @hit w v hv => simp [fetched, hv]
  | @miss w hnone => simp [fetched, hnone, or_assoc]
  | @arrive n w hw =>
    have hpending : k ∈ s.pending.map S.key ↔
        k = S.key w ∨ k ∈ (s.pending.eraseIdx n).map S.key := by
      rw [← Multiset.mem_coe, ← Multiset.map_coe, ← singleton_add_eraseIdx hw]
      simp
    rw [hpending]
    by_cases hkw : k = S.key w
    · simp [fetched, arrive, hkw]
    · simp only [fetched, arrive, List.not_mem_nil, or_false, Function.update_of_ne hkw, hkw,
        false_or]
  | fail hw => exact he.elim

omit [DecidableEq κ] in
/-- A step fetches no value that was fetched before exactly when it is patient. -/
theorem Accounts.nodup_iff {ks : List κ} (hs : Accounts S s ks) :
    (ks ++ s.fetched S e).Nodup ↔ ks.Nodup ∧ s.Patient S e := by
  cases e with
  | arrive | fail => simp [fetched, Patient]
  | request w =>
    simp only [fetched, Patient]
    cases hcache : s.cache (S.key w) with
    | some v => simp
    | none =>
      have hmem : S.key w ∈ ks ↔ S.key w ∈ s.pending.map S.key := by
        simpa [hcache] using hs (S.key w)
      rw [Option.isNone_none, if_pos rfl, List.nodup_append_comm, List.singleton_append,
        List.nodup_cons, hmem, and_comm]
      simp

/-- **Values that are fetched twice.** In a run without failures, no value is fetched twice exactly
when nobody asks for one that is being fetched. -/
theorem nodup_fetched_iff (hsucceeds : (machine S).Along (fun _ e => e.Succeeds) empty es)
    (ht : (machine S).run empty es = some t) :
    ((machine S).log (fetched S) empty es).Nodup ↔ (machine S).Along (Patient S) empty es := by
  have h := Machine.history_iff_along (f := fun ks s e => ks ++ fetched S s e)
    (I := Accounts S) (P := List.Nodup) (A := Patient S) (fun hs he ht => hs.step he ht)
    (fun hs => hs.nodup_iff) (h := []) (by simp [Accounts, empty]) hsucceeds ht
  exact h.trans (and_iff_right List.nodup_nil)

end Loader
