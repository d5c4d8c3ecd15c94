import Mathlib.Algebra.BigOperators.Group.Multiset.Basic
import SnapYak.Devices.Sound
import SnapYak.Machine.History

/-!
# What the collection owes to the devices

An update overwrites the whole value of a field with that of a copy. What it was meant to do is to
add to the field, by as much as the handler added to the copy: its *gain*. The two agree when the
update lands on the value that the copy was made from. Otherwise the landing also takes back what
has been written since, or puts back what has been taken away since: its *drift*.

The ledger of a yak has the stored value of a field, the gains of the updates that are outstanding,
and what the users have done. It balances, up to the drift of the landings.

## Main definitions

* `Field.count` : the number of likes or comments.
* `World.storedCount`, `World.pending` : what is stored, and what is on its way.
* `World.added`, `World.drift` : what the users do in a step, and what a landing forgets.

## Main results

* `World.Sound.ledger` : the ledger after a step.
* `World.Initial.count_eq` : the balance of a run from the beginning.
-/

namespace SnapYak

/-- The number of likes or comments of a yak. -/
def Field.count : Field → Yak → ℤ
  | likes, y => y.likes
  | comments, y => y.comments.length

theorem isValue_count (f : Field) : f.IsValue f.count 0 :=
  match f with
  | .likes => isValue_likes
  | .comments => isValue_comments.comp fun l => (l.length : ℤ)

/-- What an update adds to the copy that it starts from, if it is one of the field of this yak. -/
def gain (f : Field) (url : String) (c : Field × Yak × Yak) : ℤ :=
  if c.1 = f ∧ c.2.1.imageUrl = url then f.count c.2.1 - f.count c.2.2 else 0

/-! ### One device -/

namespace Device

variable {D : Type} {d d' : Device D} {docs : List Document} {a : Action D} {calls : Calls D}

/-- By how much an action changes the vote of the device on a yak. -/
def swing (d : Device D) (url : String) (a : Action D) : ℤ :=
  match d.tapped a with
  | some (dir, yak) =>
    if yak.imageUrl = url then
      ((d.defaults.ballot url).tap dir).value - (d.defaults.ballot url).value
    else 0
  | none => 0

/-- The comment that an action posts on a yak. -/
def posted (d : Device D) (url : String) (a : Action D) : List String :=
  match d.replied a with
  | some (yak, comment) => if yak.imageUrl = url then [comment] else []
  | none => []

/-- What an action adds to a field of a yak, as the user sees it. -/
def added (d : Device D) (f : Field) (url : String) (a : Action D) : ℤ :=
  match f with
  | .likes => d.swing url a
  | .comments => (d.posted url a).length

/-- The lists of votes record the swing. -/
theorem Knows.value_ballot (h : d.Knows docs) (he : d.Effect a d' calls) (url : String) :
    (d'.defaults.ballot url).value = (d.defaults.ballot url).value + d.swing url a := by
  cases he with
  | quiet htapped _ _ hvoted _ =>
    simp only [swing, htapped, UserDefaults.ballot, hvoted, add_zero]
  | reply htapped _ _ hvoted _ =>
    simp only [swing, htapped, UserDefaults.ballot, hvoted, add_zero]
  | @vote dir yak htapped _ _ hdefaults _ =>
    rw [hdefaults, (h.votes.vote dir yak).1.ballot_eq, tapBallots]
    simp only [swing, htapped]
    by_cases hurl : yak.imageUrl = url
    · rw [if_pos hurl, hurl, Function.update_self]
      omega
    · rw [if_neg hurl, Function.update_of_ne (Ne.symm hurl), add_zero]

/-- What an action adds to a field is what its updates gain. -/
theorem Knows.sum_gain (h : d.Knows docs) (he : d.Effect a d' calls) (f : Field) (url : String) :
    ((calls.filterMap Request.call?).map (gain f url)).sum = d.added f url a := by
  cases he with
  | quiet htapped hreplied hcalls _ _ =>
    have hnil : calls.filterMap Request.call? = [] := List.filterMap_eq_nil_iff.mpr hcalls
    cases f <;> simp [added, swing, posted, htapped, hreplied, hnil]
  | @vote dir yak htapped hreplied _ _ _ =>
    obtain ⟨-, hcopy, -⟩ := h.votes.vote dir yak
    rw [filterMap_call?_vote, hcopy, List.map_singleton, List.sum_singleton]
    cases f with
    | likes =>
      simp only [added, swing, htapped, gain, true_and, Field.count, Yak.addLikes,
        add_sub_cancel_left]
      by_cases hurl : yak.imageUrl = url
      · simp only [hurl, ↓reduceIte]
      · simp only [hurl, ↓reduceIte]
    | comments => simp [added, posted, hreplied, gain]
  | @reply yak comment htapped hreplied _ _ _ =>
    cases f with
    | likes => simp [added, swing, htapped, updateComments, Request.call?, Callback.call?, gain]
    | comments =>
      simp only [added, posted, hreplied]
      by_cases hurl : yak.imageUrl = url
      · simp [updateComments, Request.call?, Callback.call?, gain, hurl, Field.count,
          Yak.addComment]
      · simp [updateComments, Request.call?, Callback.call?, gain, hurl, Yak.addComment]

end Device

/-! ### Worlds -/

namespace World

variable {ι D : Type}

/-- The stored count of a field; that of a yak that is not stored is `0`. -/
def storedCount (f : Field) (url : String) (s : World ι D) : ℤ :=
  storedValue f.count 0 s.remote.docs url

/-- What an update of a device gains. -/
def gain (f : Field) (url : String) (c : Field × Yak × ι × Yak) : ℤ :=
  SnapYak.gain f url (c.1, c.2.1, c.2.2.2)

/-- What the outstanding updates gain. -/
def pending (f : Field) (url : String) (s : World ι D) : ℤ :=
  (s.remote.outstanding.map (gain f url)).sum

/-- What a step adds to a field, as the users see it. -/
def added (f : Field) (url : String) (s : World ι D) : Event ι D → ℤ
  | .act i a => (s.devices i).added f url a
  | .signal _ => 0

/-- By how much the landing of an update misses its gain: the count of the copy that the update was
made from, less the count that is stored. -/
def drift (f : Field) (url : String) (s : World ι D) : Event ι D → ℤ
  | .act _ _ => 0
  | .signal g => match s.remote.applied (.signal g) with
    | some w =>
      if w.field = f ∧ w.targetYak.imageUrl = url then
        f.count w.caller.2 - s.storedCount f url
      else 0
    | none => 0

/-- An update that lands finds the count of the copy that it was made from. -/
def Timely (f : Field) (url : String) (s : World ι D) : Event ι D → Prop
  | .act _ _ => True
  | .signal g => ∀ w ∈ s.remote.applied (.signal g), w.field = f → w.targetYak.imageUrl = url →
    f.count w.caller.2 = s.storedCount f url

instance (f : Field) (url : String) (s : World ι D) : (e : Event ι D) → Decidable (Timely f url s e)
  | .act _ _ => isTrue trivial
  | .signal g => inferInstanceAs (Decidable (∀ w ∈ s.remote.applied (.signal g), _))

variable {f : Field} {url : String} {s t : World ι D}

theorem drift_eq_zero {e : Event ι D} (h : Timely f url s e) : drift f url s e = 0 := by
  cases e with
  | act i a => rfl
  | signal g =>
    simp only [drift]
    split
    · rename_i w hw
      split_ifs with hfu
      · rw [h w hw hfu.1 hfu.2, sub_self]
      · rfl
    · rfl

/-- Nothing is on its way when no call is outstanding. -/
theorem pending_of_quiescent (h : s.remote.Quiescent) : pending f url s = 0 := by
  simp [pending, Remote.outstanding, h.1, h.2.1]

namespace Sound

/-- The ledger after an action. -/
theorem ledger_act (h : Sound s) {i : ι} {a : Action D} {d : Device D} {calls : Device.Calls D}
    (hact : (s.devices i).Effect a d calls)
    (hi : s.remote.Issued (calls.map (Request.tag i)) t.remote) :
    storedCount f url t + pending f url t =
      storedCount f url s + pending f url s + added f url s (.act i a) := by
  have hstored : storedCount f url t = storedCount f url s := by
    rw [storedCount, hi.docs, storedCount]
  have hgain : (((calls.map (Request.tag i)).filterMap Request.call?).map (gain f url)).sum =
      (s.devices i).added f url a := by
    rw [← (h.devices i).sum_gain hact, Request.filterMap_call?_tag, List.map_map]
    rfl
  rw [hstored, pending, hi.outstanding, Multiset.map_add, Multiset.sum_add, Multiset.map_coe,
    Multiset.sum_coe, hgain, ← add_assoc]
  rfl

variable [LinearOrder D] {P : Platform D}

/-- What is stored after a signal: the gain of the update that lands, and its drift. -/
theorem storedCount_signal (h : Sound s) {g : Signal} {o : Outcome (ι × Completion)}
    {remote : Remote (ι × Completion) (ι × Yak) D}
    (he : Remote.Effect P.distance s.remote g remote o) :
    storedValue f.count 0 remote.docs url =
      storedCount f url s + (((s.remote.landed (.signal g)).map (gain f url)).sum +
        drift f url s (.signal g)) := by
  rw [h.storedValue_signal (isValue_count f) he]
  simp only [Remote.landed, drift, storedCount]
  cases s.remote.applied (.signal g) with
  | none => exact (add_zero _).symm
  | some w =>
    simp only [Option.map_some, Option.toList_some, List.foldl_cons, List.foldl_nil, Write.call,
      Multiset.coe_singleton, Multiset.map_singleton, Multiset.sum_singleton, gain, SnapYak.gain]
    split_ifs
    · omega
    · exact (add_zero _).symm

/-- The ledger after a signal. -/
theorem ledger_signal (h : Sound s) {g : Signal} (hg : g.Succeeds) {o : Outcome (ι × Completion)}
    {remote : Remote (ι × Completion) (ι × Yak) D}
    (he : Remote.Effect P.distance s.remote g remote o) (ht : t.remote = remote) :
    storedCount f url t + pending f url t =
      storedCount f url s + pending f url s + drift f url s (.signal g) := by
  subst ht
  have hout : pending f url s =
      ((s.remote.landed (.signal g)).map (gain f url)).sum + pending f url t := by
    rw [pending, Remote.outstanding_signal he, h.lost_eq_zero hg, zero_add, Multiset.map_add,
      Multiset.sum_add]
    rfl
  have hstored : storedCount f url t = _ := h.storedCount_signal he
  omega

variable [DecidableEq ι] [Zero D] [OfNat D 10000000]

/-- **The ledger.** What is stored or on its way changes by what the users add, and by the drift of
an update that lands. -/
theorem ledger (h : Sound s) {e : Event ι D} (hsucc : e.Succeeds)
    (ht : (machine ι P).step s e = some t) :
    storedCount f url t + pending f url t =
      storedCount f url s + pending f url s + (added f url s e + drift f url s e) := by
  cases effect_of_step ht with
  | act hact hissue =>
    rw [drift, add_zero]
    exact h.ledger_act hact (Remote.issued_of_issueAll hissue)
  | signal he => simpa [added] using h.ledger_signal hsucc he rfl
  | completed he => simpa [added] using h.ledger_signal hsucc he rfl

/-- The ledger after a run. -/
theorem run_ledger (h : Sound s) (f : Field) (url : String) {es : List (Event ι D)}
    (hsucc : (machine ι P).Along (fun _ e => e.Succeeds) s es)
    (hrun : (machine ι P).run s es = some t) :
    storedCount f url t + pending f url t = storedCount f url s + pending f url s +
      ((machine ι P).total (added f url) s es + (machine ι P).total (drift f url) s es) := by
  rw [← Machine.total_add hrun]
  exact Machine.eq_add_total (I := Sound) (q := fun s => storedCount f url s + pending f url s)
    (fun h _ ht => Sound.step h ht) (fun h hsucc ht => Sound.ledger h hsucc ht) h hsucc hrun

end Sound

/-- **The balance of a run.** When no call is outstanding, a yak has what the users have added, up
to the drift of the landings. -/
theorem Initial.count_eq [LinearOrder D] [DecidableEq ι] [Zero D] [OfNat D 10000000]
    {P : Platform D} (h : Initial s) {es : List (Event ι D)}
    (hsucc : (machine ι P).Along (fun _ e => e.Succeeds) s es)
    (hrun : (machine ι P).run s es = some t) (hq : t.remote.Quiescent) {y : Yak}
    (hy : stored t.remote.docs url = some y) :
    f.count y =
      (machine ι P).total (added f url) s es + (machine ι P).total (drift f url) s es := by
  have hzero : storedCount f url s = 0 := by
    cases hurl : stored s.remote.docs url with
    | none => rw [storedCount, storedValue, hurl, Option.map_none, Option.getD_none]
    | some z =>
      obtain ⟨hlikes, hcomments⟩ := h.fresh url z hurl
      rw [storedCount, storedValue_of_stored hurl]
      cases f <;> simp [Field.count, hlikes, hcomments]
  have hledger := h.sound.run_ledger f url hsucc hrun
  rwa [storedCount, storedValue_of_stored hy, pending_of_quiescent hq,
    pending_of_quiescent h.quiescent, hzero, add_zero, add_zero, zero_add] at hledger

end World

end SnapYak
