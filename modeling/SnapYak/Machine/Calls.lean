import Mathlib.Data.List.MinMax
import Mathlib.Data.List.Perm.Basic
import SnapYak.Machine.History

/-!
# Asynchronous calls and their results

A machine issues asynchronous calls and keeps those that are outstanding in a queue; their callbacks
run in any order. The history variable `Machine.calls` numbers the calls in the order of issue and
records the results in the order in which they arrive.

A register that every result overwrites has the result that arrived last. This is the result of the
call issued last only if no older call has been overtaken.

## Main definitions

* `CallStep` : what a step does to the calls.
* `Calls`, `Machine.calls` : the calls of a run.
* `Calls.latest`, `Calls.newest` : the result that arrived last, and that of the call issued last.
* `Calls.UpToDate` : the call whose result arrived last is the one issued last.

## Main results

* `Calls.newest_eq_latest` : the two results of calls that are up to date.
* `Machine.register_eq_content` : a register that every result overwrites.
-/

/-- What a step does to the calls. A call that completes is known by its position among those that
are outstanding. -/
inductive CallStep (β : Type*)
  | issue
  | succeed (n : ℕ) (result : β)
  | fail (n : ℕ)
  /-- The results that have arrived are discarded. -/
  | discard

/-- The calls of a run, by their numbers in the order of issue. -/
structure Calls (β : Type*) where
  /-- How many calls were issued. -/
  issued : ℕ
  /-- The outstanding calls. -/
  pending : List ℕ
  /-- The calls that succeeded, in the order in which their results arrived. -/
  succeeded : List (ℕ × β)
  /-- Whether the results that have arrived were discarded. -/
  discarded : Bool

/-- How a step changes the number of outstanding calls. -/
def CallStep.Moves {β : Type*} (m m' : ℕ) : Option (CallStep β) → Prop
  | none | some .discard => m' = m
  | some .issue => m' = m + 1
  | some (.succeed n _) | some (.fail n) => n < m ∧ m' + 1 = m

/-- A register that every result overwrites, and that a discard resets to `z`. -/
def CallStep.register {β γ : Type*} (f : β → γ) (z g : γ) : Option (CallStep β) → γ
  | some (.succeed _ result) => f result
  | some .discard => z
  | _ => g

namespace Calls

variable {β γ : Type*}

/-- The calls at the beginning of a run, `m` of which are outstanding. -/
def initial (m : ℕ) : Calls β := ⟨m, List.range m, [], false⟩

/-- The calls after a step. -/
def act (c : Calls β) : Option (CallStep β) → Calls β
  | none => c
  | some .issue => { c with issued := c.issued + 1, pending := c.pending ++ [c.issued] }
  | some (.succeed n result) => { c with
      pending := c.pending.eraseIdx n
      succeeded := c.succeeded ++ (c.pending[n]?.map fun k => (k, result)).toList
      discarded := false }
  | some (.fail n) => { c with pending := c.pending.eraseIdx n }
  | some .discard => { c with discarded := true }

/-- The result that arrived last. -/
def latest (c : Calls β) : Option β := c.succeeded.getLast?.map Prod.snd

/-- The result of the call issued last among those that succeeded. -/
def newest (c : Calls β) : Option β := (c.succeeded.argmax Prod.fst).map Prod.snd

/-- No call issued after the one whose result arrived last has succeeded. -/
def UpToDate (c : Calls β) : Prop :=
  ∀ last ∈ c.succeeded.getLast?, ∀ p ∈ c.succeeded, p.1 ≤ last.1

/-- What a register has that every result overwrites. -/
def content (f : β → γ) (z : γ) (c : Calls β) : γ :=
  if c.discarded then z else (c.latest.map f).getD z

/-- The numbers of the calls that have not failed. -/
def numbers (c : Calls β) : List ℕ := c.pending ++ c.succeeded.map Prod.fst

/-- Numbers are given once; `m` calls are outstanding. -/
structure WellFormed (m : ℕ) (c : Calls β) : Prop where
  length_pending : c.pending.length = m
  nodup : c.numbers.Nodup
  lt_issued : ∀ k ∈ c.numbers, k < c.issued

variable {c : Calls β} {m m' : ℕ} {op : Option (CallStep β)}

theorem wellFormed_initial (m : ℕ) : (initial m : Calls β).WellFormed m where
  length_pending := List.length_range
  nodup := by simpa [numbers, initial] using List.nodup_range
  lt_issued k hk := by simpa [numbers, initial] using hk

/-- A call that succeeds keeps its number. -/
theorem numbers_succeed_perm {n k : ℕ} (result : β) (h : c.pending[n]? = some k) :
    (c.act (some (.succeed n result))).numbers.Perm c.numbers := by
  obtain ⟨hn, rfl⟩ := List.getElem?_eq_some_iff.mp h
  simp only [act, numbers, h, Option.map_some, Option.toList_some, List.map_append, List.map_cons,
    List.map_nil, ← List.append_assoc]
  refine (List.perm_append_singleton _ _).trans ?_
  exact (List.getElem_cons_eraseIdx_perm hn).append_right _

/-- A step gives a new number to a call that it issues, and no other. -/
theorem WellFormed.act (hc : c.WellFormed m) (hop : CallStep.Moves m m' op) :
    (c.act op).WellFormed m' := by
  rcases op with _ | (_ | ⟨n, result⟩ | n | _)
  · obtain rfl : m' = m := hop
    exact hc
  · obtain rfl : m' = m + 1 := hop
    have hperm : (c.act (some .issue)).numbers.Perm (c.issued :: c.numbers) := by
      simp only [Calls.act, numbers, List.append_assoc, List.singleton_append]
      exact List.perm_middle
    refine ⟨by simp [Calls.act, hc.length_pending], hperm.nodup_iff.mpr ?_, fun k hk => ?_⟩
    · exact List.nodup_cons.mpr ⟨fun h => lt_irrefl _ (hc.lt_issued _ h), hc.nodup⟩
    · rcases List.mem_cons.mp (hperm.mem_iff.mp hk) with rfl | hk
      · exact Nat.lt_succ_self _
      · exact (hc.lt_issued k hk).trans (Nat.lt_succ_self _)
  · obtain ⟨hn, hm'⟩ : n < m ∧ m' + 1 = m := hop
    obtain ⟨k, hk⟩ : ∃ k, c.pending[n]? = some k :=
      ⟨_, List.getElem?_eq_getElem (hc.length_pending ▸ hn)⟩
    have hperm := numbers_succeed_perm result hk
    refine ⟨?_, hperm.nodup_iff.mpr hc.nodup, fun k hk => hc.lt_issued k (hperm.mem_iff.mp hk)⟩
    have := hc.length_pending
    simp only [Calls.act, List.length_eraseIdx]
    split_ifs <;> omega
  · obtain ⟨hn, hm'⟩ : n < m ∧ m' + 1 = m := hop
    have hsub : (c.act (some (.fail n))).numbers.Sublist c.numbers :=
      (List.eraseIdx_sublist _ _).append_right _
    refine ⟨?_, hc.nodup.sublist hsub, fun k hk => hc.lt_issued k (hsub.subset hk)⟩
    have := hc.length_pending
    simp only [Calls.act, List.length_eraseIdx]
    split_ifs <;> omega
  · obtain rfl : m' = m := hop
    exact ⟨hc.length_pending, hc.nodup, hc.lt_issued⟩

/-- A call that succeeds has the result that arrived last. -/
theorem latest_succeed {n : ℕ} {result : β} (hn : n < c.pending.length) :
    (c.act (some (.succeed n result))).latest = some result := by
  simp [Calls.act, latest, List.getElem?_eq_getElem hn]

/-- A step at which no result arrives. -/
theorem latest_act_of_ne (h : ∀ n result, op ≠ some (.succeed n result)) :
    (c.act op).latest = c.latest := by
  rcases op with _ | (_ | ⟨n, result⟩ | n | _)
  · rfl
  · rfl
  · exact absurd rfl (h n result)
  · rfl
  · rfl

/-- A result overwrites the register, and a discard resets it. -/
theorem content_act {f : β → γ} {z : γ} (hc : c.WellFormed m) (hop : CallStep.Moves m m' op) :
    (c.act op).content f z = CallStep.register f z (c.content f z) op := by
  rcases op with _ | (_ | ⟨n, result⟩ | n | _)
  · rfl
  · rfl
  · obtain ⟨hn, -⟩ : n < m ∧ m' + 1 = m := hop
    rw [content, latest_succeed (hc.length_pending ▸ hn)]
    rfl
  · rfl
  · rfl

/-- **Calls that are up to date.** If no call issued after the one whose result arrived last has
succeeded, the result that arrived last is that of the call issued last. -/
theorem newest_eq_latest (hc : c.WellFormed m) (h : c.UpToDate) : c.newest = c.latest := by
  rcases List.eq_nil_or_concat c.succeeded with hnil | ⟨ps, last, hlast⟩
  · simp [newest, latest, hnil]
  · have hget : c.succeeded.getLast? = some last := by simp [hlast]
    obtain ⟨max, hmax⟩ : ∃ max, c.succeeded.argmax Prod.fst = some max := by
      refine Option.ne_none_iff_exists'.mp fun hnone => ?_
      simp [List.argmax_eq_none.mp hnone] at hlast
    have hlastmem : last ∈ c.succeeded := List.mem_of_getLast? hget
    have hmaxmem : max ∈ c.succeeded := List.argmax_mem hmax
    have hnumber : max.1 = last.1 :=
      le_antisymm (h last hget max hmaxmem) (List.le_of_mem_argmax hlastmem hmax)
    have hnodup : (c.succeeded.map Prod.fst).Nodup := hc.nodup.of_append_right
    have heq : max = last := List.inj_on_of_nodup_map hnodup hmaxmem hlastmem hnumber
    rw [newest, latest, hmax, hget, heq]

end Calls

namespace Machine

variable {σ ε β γ : Type*} (M : Machine σ ε)

/-- The calls of a run that begins with `m` outstanding calls, `w` being what the steps do to
them. -/
def calls (w : σ → ε → Option (CallStep β)) (m : ℕ) : σ → List ε → Calls β :=
  M.history (fun c s e => c.act (w s e)) (.initial m)

variable {M} {w : σ → ε → Option (CallStep β)} (outstanding : σ → ℕ) {I : σ → Prop}

/-- The calls of a run have different numbers. -/
theorem wellFormed_calls (hI : ∀ {s e t}, I s → M.step s e = some t → I t)
    (hmoves : ∀ {s e t}, I s → M.step s e = some t →
      CallStep.Moves (outstanding s) (outstanding t) (w s e)) {s t : σ} {es : List ε} (hs : I s)
    (hrun : M.run s es = some t) :
    (M.calls w (outstanding s) s es).WellFormed (outstanding t) := by
  refine (history_induction (A := fun _ _ => True)
    (I := fun s c => I s ∧ Calls.WellFormed (outstanding s) c) ?_
    ⟨hs, Calls.wellFormed_initial _⟩ (.trivial _ _) hrun).2
  rintro s c e t ⟨hs, hc⟩ - ht
  exact ⟨hI hs ht, hc.act (hmoves hs ht)⟩

/-- **Register rule.** What every result overwrites, and every discard resets, has the result that
arrived last. -/
theorem register_eq_content {f : β → γ} {q : σ → γ}
    (hI : ∀ {s e t}, I s → M.step s e = some t → I t)
    (hmoves : ∀ {s e t}, I s → M.step s e = some t →
      CallStep.Moves (outstanding s) (outstanding t) (w s e))
    {z : γ} (hq : ∀ {s e t}, I s → M.step s e = some t → q t = CallStep.register f z (q s) (w s e))
    {s t : σ} {es : List ε} (hs : I s) (hz : q s = z) (hrun : M.run s es = some t) :
    q t = (M.calls w (outstanding s) s es).content f z := by
  refine (history_induction (A := fun _ _ => True)
    (I := fun s c => I s ∧ Calls.WellFormed (outstanding s) c ∧ q s = c.content f z) ?_
    ⟨hs, Calls.wellFormed_initial _, hz⟩ (.trivial _ _) hrun).2.2
  rintro s c e t ⟨hs, hc, hqs⟩ - ht
  refine ⟨hI hs ht, hc.act (hmoves hs ht), ?_⟩
  rw [hq hs ht, hqs, Calls.content_act hc (hmoves hs ht)]

end Machine
