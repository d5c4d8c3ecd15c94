import Mathlib.Algebra.BigOperators.Ring.Finset
import Mathlib.Data.Fintype.Pi
import SnapYak.Devices.Ledger

/-!
# Likes and the votes of the devices

The likes of a yak are meant to be the number of devices that have it in their list of upvotes less
the number of those that have it in their list of downvotes. A vote overwrites the likes with those
of a copy, so this is true up to the drift of the votes that land: it is true if every vote lands on
the likes that its tap started from, and two taps on equally old copies are enough to break it.

## Main definitions

* `World.voters` : the devices that have a yak in their list.
* `World.turnout` : the sum of the ballots.

## Main results

* `World.likes_eq_turnout` : the likes after a run.
* `World.vote_lost` : two devices vote, and one vote is stored.
-/

namespace SnapYak

namespace World

variable {ι D : Type} [Fintype ι]

/-- The devices that have a yak in their list of the direction. -/
def voters (dir : Direction) (url : String) (s : World ι D) : Finset ι :=
  {i | url ∈ (s.devices i).defaults.voted dir}

/-- The sum of the ballots of the devices. -/
def turnout (url : String) (s : World ι D) : ℤ :=
  ∑ i, ((s.devices i).defaults.ballot url).value

variable {url : String} {s t : World ι D}

/-- The ballots count the devices in the two lists. -/
theorem Sound.turnout_eq (h : Sound s) (url : String) :
    turnout url s = (voters .up url s).card - (voters .down url s).card := by
  simp only [turnout, ← (h.devices _).votes.contribution_eq, UserDefaults.contribution,
    Finset.sum_sub_distrib, Finset.sum_boole, voters]

variable [DecidableEq ι]

/-- A device that has changed its vote changes the sum by as much. -/
theorem turnout_setDevice {i : ι} {d : Device D} {n : ℤ}
    (hn : (d.defaults.ballot url).value = ((s.devices i).defaults.ballot url).value + n) :
    turnout url (s.setDevice i d) = turnout url s + n := by
  have hvalue (j : ι) : ((Function.update s.devices i d j).defaults.ballot url).value =
      ((s.devices j).defaults.ballot url).value + if j = i then n else 0 := by
    by_cases hj : j = i
    · rw [hj, Function.update_self, hn, if_pos rfl]
    · rw [Function.update_of_ne hj, if_neg hj, add_zero]
  simp only [turnout, setDevice, hvalue, Finset.sum_add_distrib, Finset.sum_ite_eq',
    Finset.mem_univ, ↓reduceIte]

variable [LinearOrder D] [Zero D] [OfNat D 10000000] {P : Platform D}

/-- The sum of the ballots changes by what the users add. -/
theorem Sound.turnout_step (h : Sound s) {e : Event ι D} (ht : (machine ι P).step s e = some t) :
    turnout url t = turnout url s + added .likes url s e := by
  cases effect_of_step ht with
  | @act i a d calls remote hact hissue =>
    exact turnout_setDevice (s := { s with remote := remote }) ((h.devices i).value_ballot hact url)
  | signal he => exact (add_zero _).symm
  | @completed g remote i k yaks he =>
    refine turnout_setDevice (s := { s with remote := remote }) ?_
    rw [Device.defaults_complete]
    exact (add_zero _).symm

/-- **Conservation of votes.** In every run in which no call fails, whenever no call is outstanding:
the likes of a yak are the number of devices that have it among their upvotes less the number of
those that have it among their downvotes, up to the drift of the votes that have landed; and without
any correction if every vote landed on the likes that its tap had started from. -/
theorem likes_eq_turnout (h : Initial s) {es : List (Event ι D)}
    (hsucc : (machine ι P).Along (fun _ e => e.Succeeds) s es)
    (hrun : (machine ι P).run s es = some t) (hq : t.remote.Quiescent) {y : Yak}
    (hy : stored t.remote.docs url = some y) :
    y.likes = (voters .up url t).card - (voters .down url t).card +
        (machine ι P).total (drift .likes url) s es ∧
      ((machine ι P).Along (Timely .likes url) s es →
        y.likes = (voters .up url t).card - (voters .down url t).card) := by
  have hturnout : turnout url t = 0 + (machine ι P).total (added .likes url) s es := by
    have hs : turnout url s = 0 := by
      simp [turnout, UserDefaults.ballot, h.voted, Ballot.value]
    rw [← hs]
    exact Machine.eq_add_total (I := Sound) (A := fun _ _ => True) (fun h _ ht => Sound.step h ht)
      (fun h _ ht => Sound.turnout_step h ht) h.sound (.trivial s es) hrun
  have hcount : y.likes = _ := h.count_eq (f := .likes) hsucc hrun hq hy
  rw [zero_add] at hturnout
  rw [← hturnout, (h.sound.run hrun).turnout_eq] at hcount
  refine ⟨hcount, fun htimely => ?_⟩
  rw [hcount, Machine.total_eq_zero (fun hA => drift_eq_zero hA) htimely hrun, add_zero]

/-- Two devices vote for a yak, and the second one has fetched it after the first vote landed. -/
theorem likes_eq_turnout_one_after_the_other :
    let yak := newYak "a" ⟨0, 0⟩ 0
    let fetch (i : Fin 2) : List (Event (Fin 2) ℕ) :=
      [.act i (.loadList 0), .signal (.snapshot 0), .signal (.deliver 0)]
    let vote (i : Fin 2) : List (Event (Fin 2) ℕ) :=
      [.act i (.voteRow .up 0), .signal (.snapshot 0), .signal (.deliver 0), .signal (.apply 0)]
    ∃ t y, (machine (Fin 2) Platform.discrete).run (single yak ⟨0, 0⟩)
        (fetch 0 ++ vote 0 ++ fetch 1 ++ vote 1) = some t ∧
      stored t.remote.docs "a" = some y ∧ (voters .up "a" t).card = 2 ∧
      y.likes = (voters .up "a" t).card - (voters .down "a" t).card := by
  intro yak fetch vote
  have h : ((machine (Fin 2) Platform.discrete).run (single yak ⟨0, 0⟩)
      (fetch 0 ++ vote 0 ++ fetch 1 ++ vote 1)).map (fun t => (decide t.remote.Quiescent,
        stored t.remote.docs "a", (voters .up "a" t).card)) =
      some (true, some { yak with likes := 2 }, 2) := by decide +kernel
  obtain ⟨t, ht, heq⟩ := Option.map_eq_some_iff.mp h
  simp only [Prod.mk.injEq, decide_eq_true_eq] at heq
  obtain ⟨hq, hy, hcard⟩ := heq
  exact ⟨t, _, ht, hy, hcard, (likes_eq_turnout (initial_single rfl rfl _) (by decide +kernel) ht hq
    hy).2 (by decide +kernel)⟩

/-- **A lost vote.** Two devices fetch a yak without likes and vote for it. Both writes have the
likes `1`, and the second one takes the first vote back. -/
theorem vote_lost :
    let yak := newYak "a" ⟨0, 0⟩ 0
    let es : List (Event (Fin 2) ℕ) := [
      .act 0 (.loadList 0), .signal (.snapshot 0), .signal (.deliver 0),
      .act 1 (.loadList 0), .signal (.snapshot 0), .signal (.deliver 0),
      .act 0 (.voteRow .up 0), .signal (.snapshot 0), .signal (.deliver 0), .signal (.apply 0),
      .act 1 (.voteRow .up 0), .signal (.snapshot 0), .signal (.deliver 0), .signal (.apply 0)]
    Initial (single yak ⟨0, 0⟩ : World (Fin 2) ℕ) ∧
    (machine (Fin 2) Platform.discrete).Along (fun _ e => e.Succeeds) (single yak ⟨0, 0⟩) es ∧
    ∃ t y, (machine (Fin 2) Platform.discrete).run (single yak ⟨0, 0⟩) es = some t ∧
      t.remote.Quiescent ∧ stored t.remote.docs "a" = some y ∧ y.likes = 1 ∧
      (voters .up "a" t).card = 2 ∧ (voters .down "a" t).card = 0 := by
  intro yak es
  have h : ((machine (Fin 2) Platform.discrete).run (single yak ⟨0, 0⟩) es).map (fun t =>
      (decide t.remote.Quiescent, stored t.remote.docs "a", (voters .up "a" t).card,
        (voters .down "a" t).card)) =
      some (true, some { yak with likes := 1 }, 2, 0) := by decide +kernel
  obtain ⟨t, ht, heq⟩ := Option.map_eq_some_iff.mp h
  simp only [Prod.mk.injEq, decide_eq_true_eq] at heq
  obtain ⟨hq, hy, hup, hdown⟩ := heq
  exact ⟨initial_single rfl rfl _, by decide +kernel, t, _, ht, hq, hy, rfl, hup, hdown⟩

end World

end SnapYak
