import Mathlib.Algebra.BigOperators.Group.List.Basic
import Mathlib.Data.Set.Finite.Basic
import SnapYak.Devices.Sound
import SnapYak.Machine.Variant

/-!
# The services come to rest

Every call of the app needs a known number of signals: a fetch a snapshot and a callback, an update
a write as well, an upload the storing of the photo, its completion and the creation of the
document. A callback may issue the next call of its chain, but no chain is longer than this. So the
services come to rest when the users pause, and nothing that is outstanding can get stuck.

Storage stores a photo once; the model of the back end would let it do so again.

## Main definitions

* `Remote.remaining` : the signals that the outstanding calls still need.
* `World.Works` : a signal that does some of the work.

## Main results

* `Remote.remaining_eq_zero_iff` : the number is zero exactly where no call is outstanding.
* `Remote.remaining_signal` : what a signal does to it.
* `World.exists_works` : a signal is possible as long as a call is outstanding.
* `World.comes_to_rest` : the runs of the services alone.
-/

namespace SnapYak

/-! ### The work that is left -/

/-- The signals that a `getDocuments` still needs, with the write that follows it. -/
def Read.remaining {κ τ D : Type} (r : Read κ τ D) : ℕ :=
  (if r.rawSnapshot.isSome then 1 else 2) + if r.call?.isSome then 1 else 0

/-- The signals that a `putData` still needs, with the creation that follows it. -/
def Put.remaining (p : Put) : ℕ := if p.isStored then 2 else 3

theorem Read.remaining_pos {κ τ D : Type} (r : Read κ τ D) : 0 < r.remaining := by
  simp only [Read.remaining]
  split_ifs <;> decide

theorem Put.remaining_pos (p : Put) : 0 < p.remaining := by
  simp only [Put.remaining]
  split_ifs <;> decide

/-- A sum over a list without one of its elements. -/
theorem sum_map_eraseIdx {α : Type*} (f : α → ℕ) {l : List α} {n : ℕ} {a : α}
    (h : l[n]? = some a) : ((l.eraseIdx n).map f).sum + f a = (l.map f).sum := by
  rw [((perm_cons_eraseIdx h).map f).sum_eq, List.map_cons, List.sum_cons, Nat.add_comm]

/-- A sum over a list with one of its elements replaced. -/
theorem sum_map_set {α : Type*} (f : α → ℕ) {l : List α} {n : ℕ} {a b : α} (h : l[n]? = some a) :
    ((l.set n b).map f).sum + f a = (l.map f).sum + f b := by
  have hn : n < l.length := (List.getElem?_eq_some_iff.mp h).1
  have hset : (l.set n b)[n]? = some b := by simp [hn]
  have herase : (l.set n b).eraseIdx n = l.eraseIdx n := List.eraseIdx_set_eq
  have hb := sum_map_eraseIdx f hset
  have ha := sum_map_eraseIdx f h
  rw [herase] at hb
  omega

namespace Remote

variable {κ τ D : Type}

/-- The signals that the outstanding calls still need. -/
def remaining (s : Remote κ τ D) : ℕ :=
  (s.reads.map Read.remaining).sum + s.writes.length + (s.puts.map Put.remaining).sum +
    s.adds.length

variable {s t : Remote κ τ D}

/-- No photo is stored twice. -/
def StoresOnce (s : Remote κ τ D) : Signal → Prop
  | .store n => ∀ p ∈ s.puts[n]?, p.isStored = false
  | _ => True

instance (s : Remote κ τ D) : (g : Signal) → Decidable (s.StoresOnce g)
  | .store n => inferInstanceAs (Decidable (∀ p ∈ s.puts[n]?, p.isStored = false))
  | .snapshot _ | .deliver _ | .fail _ | .apply _ | .reject _ | .complete .. | .failPut _
  | .create .. | .failCreate _ => isTrue trivial

/-- Nothing is left to do exactly where no call is outstanding. -/
theorem remaining_eq_zero_iff (s : Remote κ τ D) : s.remaining = 0 ↔ s.Quiescent := by
  have hzero {α : Type} {f : α → ℕ} (hf : ∀ a, 0 < f a) : ∀ {l : List α}, (l.map f).sum = 0 → l = []
    | [], _ => rfl
    | a :: l, hsum => by
      have := hf a
      rw [List.map_cons, List.sum_cons] at hsum
      omega
  constructor
  · intro h
    simp only [remaining, Nat.add_eq_zero_iff, List.length_eq_zero_iff] at h
    obtain ⟨⟨⟨hreads, hwrites⟩, hputs⟩, hadds⟩ := h
    exact ⟨hzero Read.remaining_pos hreads, hwrites, hzero Put.remaining_pos hputs, hadds⟩
  · rintro ⟨hreads, hwrites, hputs, hadds⟩
    simp [remaining, hreads, hwrites, hputs, hadds]

variable [LE D] [DecidableLE D] {distance : GeoPoint → GeoPoint → D} {o : Outcome κ}

/-- A signal does some of the work. One that succeeds, and loses no update, does one piece of it. -/
theorem remaining_signal {g : Signal} (he : Effect distance s g t o) (honce : s.StoresOnce g) :
    t.remaining < s.remaining ∧ (g.Succeeds → s.lost g = 0 → t.remaining + 1 = s.remaining) := by
  cases he with
  | @snapshot n cb hread =>
    have hsum := sum_map_set Read.remaining (b := ⟨cb, some s.docs⟩) hread
    have hone : Read.remaining ⟨cb, none⟩ = Read.remaining ⟨cb, some s.docs⟩ + 1 := by
      cases cb <;> rfl
    simp only [remaining]
    omega
  | @fetched n loc radius k docs yaks hread hyaks =>
    have hsum := sum_map_eraseIdx Read.remaining hread
    have hone : Read.remaining (⟨.fetchYaks loc radius k, some docs⟩ : Read κ τ D) = 1 := rfl
    simp only [remaining]
    omega
  | @trapped n loc radius k docs hread htrap =>
    have hsum := sum_map_eraseIdx Read.remaining hread
    have hone : Read.remaining (⟨.fetchYaks loc radius k, some docs⟩ : Read κ τ D) = 1 := rfl
    simp only [remaining]
    omega
  | @found n f target c docs id hread hid =>
    have hsum := sum_map_eraseIdx Read.remaining hread
    have htwo : Read.remaining (⟨.update f target c, some docs⟩ : Read κ τ D) = 2 := rfl
    simp only [remaining, List.length_append, List.length_singleton]
    omega
  | @missed n f target c docs hread hnone =>
    have hsum := sum_map_eraseIdx Read.remaining hread
    have htwo : Read.remaining (⟨.update f target c, some docs⟩ : Read κ τ D) = 2 := rfl
    refine ⟨by simp only [remaining]; omega, fun _ hlost => ?_⟩
    simp [lost, hread, hnone] at hlost
  | @fail n read hread =>
    have hsum := sum_map_eraseIdx Read.remaining hread
    have hpos := read.remaining_pos
    exact ⟨by simp only [remaining]; omega, fun h => h.elim⟩
  | @apply n w hwrite =>
    have hlength := (perm_cons_eraseIdx hwrite).length_eq
    simp only [remaining]
    rw [List.length_cons] at hlength
    omega
  | @reject n w hwrite =>
    have hlength := (perm_cons_eraseIdx hwrite).length_eq
    rw [List.length_cons] at hlength
    exact ⟨by simp only [remaining]; omega, fun h => h.elim⟩
  | @store n put hput =>
    have hsum := sum_map_set Put.remaining (b := { put with isStored := true }) hput
    have hnot : put.isStored = false := honce put hput
    have hthree : put.remaining = 3 := by simp [Put.remaining, hnot]
    have htwo : Put.remaining { put with isStored := true } = 2 := rfl
    simp only [remaining]
    omega
  | @complete n put loc date hput hstored =>
    have hsum := sum_map_eraseIdx Put.remaining hput
    have htwo : put.remaining = 2 := by simp [Put.remaining, hstored]
    simp only [remaining, List.length_append, List.length_singleton]
    omega
  | @failPut n put hput =>
    have hsum := sum_map_eraseIdx Put.remaining hput
    have hpos := put.remaining_pos
    exact ⟨by simp only [remaining]; omega, fun h => h.elim⟩
  | @create n id y hadd hid =>
    have hlength := (perm_cons_eraseIdx hadd).length_eq
    rw [List.length_cons] at hlength
    simp only [remaining]
    omega
  | @failCreate n y hadd =>
    have hlength := (perm_cons_eraseIdx hadd).length_eq
    rw [List.length_cons] at hlength
    exact ⟨by simp only [remaining]; omega, fun h => h.elim⟩

/-- As long as a call is outstanding, some signal is possible that is not a failure. -/
theorem exists_signal (h : ¬s.Quiescent) :
    ∃ g, (s.signal distance g).isSome ∧ s.StoresOnce g ∧ g.Succeeds := by
  rcases hreads : s.reads with _ | ⟨⟨cb, snapshot⟩, reads⟩
  · rcases hwrites : s.writes with _ | ⟨w, writes⟩
    · rcases hputs : s.puts with _ | ⟨put, puts⟩
      · rcases hadds : s.adds with _ | ⟨y, adds⟩
        · exact absurd ⟨hreads, hwrites, hputs, hadds⟩ h
        · obtain ⟨id, hid⟩ :=
            Infinite.exists_notMem_finset (s.docs.map Document.documentID).toFinset
          rw [List.mem_toFinset] at hid
          refine ⟨.create 0 id, ?_, trivial, trivial⟩
          simp only [signal, hadds, List.getElem?_cons_zero, Option.bind_eq_bind, Option.bind_some,
            if_neg hid, Option.isSome_some]
      · cases hstored : put.isStored with
        | false =>
          refine ⟨.store 0, by simp [signal, hputs], fun p hp => ?_, trivial⟩
          rw [hputs, List.getElem?_cons_zero] at hp
          exact Option.some.inj hp ▸ hstored
        | true =>
          have hdate : (Timestamp.timestampWithDate 0).isSome :=
            Timestamp.isSome_timestampWithDate_iff.mpr (by norm_num)
          exact ⟨.complete 0 ⟨0, 0⟩ 0, by simp [signal, hputs, hstored, hdate], trivial, trivial⟩
    · exact ⟨.apply 0, by simp [signal, hwrites], trivial, trivial⟩
  · cases snapshot with
    | none => exact ⟨.snapshot 0, by simp [signal, hreads], trivial, trivial⟩
    | some docs => exact ⟨.deliver 0, by simp [signal, hreads], trivial, trivial⟩

end Remote

/-! ### The services alone -/

namespace World

variable {ι D : Type}

/-- A signal that does some of the work: no user acts, and no photo is stored twice. -/
def Works (s : World ι D) : Event ι D → Prop
  | .act _ _ => False
  | .signal g => s.remote.StoresOnce g

instance (s : World ι D) : (e : Event ι D) → Decidable (Works s e)
  | .act _ _ => isFalse id
  | .signal g => inferInstanceAs (Decidable (s.remote.StoresOnce g))

variable [LinearOrder D] [DecidableEq ι] [Zero D] [OfNat D 10000000] {P : Platform D}
  {s t : World ι D}

/-- A step of the services does some of the work, and one piece of it if it succeeds. -/
theorem remaining_step (hs : Sound s) {e : Event ι D} (hworks : Works s e)
    (ht : (machine ι P).step s e = some t) :
    t.remote.remaining < s.remote.remaining ∧
      (e.Succeeds → t.remote.remaining + 1 = s.remote.remaining) := by
  cases effect_of_step ht with
  | act hact hissue => exact hworks.elim
  | signal he =>
    obtain ⟨hlt, heq⟩ := Remote.remaining_signal he hworks
    exact ⟨hlt, fun hsucc => heq hsucc (hs.lost_eq_zero hsucc)⟩
  | completed he =>
    obtain ⟨hlt, heq⟩ := Remote.remaining_signal he hworks
    exact ⟨hlt, fun hsucc => heq hsucc (hs.lost_eq_zero hsucc)⟩

/-- As long as a call is outstanding, some signal succeeds; no callback traps. -/
theorem exists_works (hs : Sound s) (h : ¬s.remote.Quiescent) :
    ∃ e t, (Works s e ∧ e.Succeeds) ∧ (machine ι P).step s e = some t := by
  obtain ⟨g, hsome, honce, hsucc⟩ : ∃ g, (s.remote.signal P.distance g).isSome ∧
    s.remote.StoresOnce g ∧ g.Succeeds := Remote.exists_signal h
  obtain ⟨⟨remote, o⟩, hsignal⟩ := Option.isSome_iff_exists.mp hsome
  refine ⟨.signal g, ?_⟩
  cases o with
  | nothing => exact ⟨_, ⟨honce, hsucc⟩, by simp only [machine, hsignal]; rfl⟩
  | completion k yaks => exact ⟨_, ⟨honce, hsucc⟩, by simp only [machine, hsignal]; rfl⟩
  | trap => exact absurd hsignal hs.signal_ne_trap

/-- **The services come to rest.** After every run of a world, with calls that succeed or fail in
any order: the services can do no more than the work that is left, whatever they do. They can finish
it without a failure; this takes exactly the signals that the outstanding calls still need, and
leaves no call outstanding. -/
theorem comes_to_rest {s₀ : World ι D} (h₀ : Initial s₀) {es : List (Event ι D)}
    (hs : (machine ι P).run s₀ es = some s) :
    (∀ es' t, (machine ι P).Along Works s es' → (machine ι P).run s es' = some t →
      es'.length + t.remote.remaining ≤ s.remote.remaining) ∧
    ∃ es' t, (machine ι P).Along (fun s e => Works s e ∧ e.Succeeds) s es' ∧
      (machine ι P).run s es' = some t ∧ t.remote.Quiescent ∧
      es'.length = s.remote.remaining := by
  have hsound : Sound s := h₀.sound.run hs
  refine ⟨fun es' t hworks ht => Machine.length_add_le_of_variant (I := Sound)
    (v := fun s => s.remote.remaining) (fun hs _ ht => hs.step ht)
    (fun hs hworks ht => (remaining_step hs hworks ht).1) hsound hworks ht, ?_⟩
  obtain ⟨es', t, hworks, ht, hrest⟩ := Machine.exists_run_of_progress (M := machine ι P)
    (I := Sound) (Q := fun s => s.remote.Quiescent) (v := fun s => s.remote.remaining)
    (A := fun s e => Works s e ∧ e.Succeeds) (fun hs _ ht => hs.step ht)
    (fun hs hA ht => (remaining_step hs hA.1 ht).1) exists_works hsound
  refine ⟨es', t, hworks, ht, hrest, ?_⟩
  have hlength := Machine.length_add_eq_of_variant (I := Sound) (v := fun s => s.remote.remaining)
    (fun hs _ ht => hs.step ht) (fun hs hA ht => (remaining_step hs hA.1 ht).2 hA.2) hsound hworks
    ht
  rwa [(Remote.remaining_eq_zero_iff _).mpr hrest, Nat.add_zero] at hlength

/-- A vote and an upload are outstanding, and the photo is stored: five signals are left. -/
theorem comes_to_rest_after_five :
    let es : List (Event (Fin 2) ℕ) := [.act 0 (.loadList 0), .signal (.snapshot 0),
      .signal (.deliver 0), .act 0 (.voteRow .up 0),
      .act 1 (.upload (.ofString "b" (by decide)) (some [1]) false false), .signal (.store 0)]
    ∃ s es' t, (machine (Fin 2) Platform.discrete).run (single (newYak "a" ⟨0, 0⟩ 0) ⟨0, 0⟩) es =
        some s ∧ (machine (Fin 2) Platform.discrete).run s es' = some t ∧
      t.remote.Quiescent ∧ es'.length = 5 := by
  intro es
  have h : ((machine (Fin 2) Platform.discrete).run (single (newYak "a" ⟨0, 0⟩ 0) ⟨0, 0⟩) es).map
      (fun s => s.remote.remaining) = some 5 := by decide +kernel
  obtain ⟨s, hs, hfive⟩ := Option.map_eq_some_iff.mp h
  obtain ⟨es', t, -, ht, hrest, hlength⟩ := (comes_to_rest (initial_single rfl rfl _) hs).2
  exact ⟨s, es', t, hs, ht, hrest, hlength.trans hfive⟩

end World

end SnapYak
