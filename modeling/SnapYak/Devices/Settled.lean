import SnapYak.Devices.Sound
import SnapYak.Store.Updates

/-!
# Calls in the order of issue

When callbacks run and writes land in the order in which they were issued, and none fails, the value
that a field is going to have is determined at any moment by the queue of the outstanding updates. A
signal does not change it, and an action changes it by appending its updates.

## Main definitions

* `Remote.settled` : the value of a field once the queue has landed.

## Main results

* `World.Sound.settled_signal` : a signal leaves the settled values as they are.
* `Remote.Issued.settled` : what the calls of an action do to them.
-/

namespace SnapYak

namespace Remote

variable {κ τ D : Type}

variable {s t : Remote κ τ D}

/-- The calls of the app join the queue at its end. -/
theorem Issued.queue {calls : List (Request κ τ D)} (h : Issued s calls t) :
    t.queue = s.queue ++ calls.filterMap Request.call? := by
  obtain ⟨rs, hrs, hcalls, -⟩ := h.reads
  rw [Remote.queue, h.writes, hrs, List.filterMap_append, hcalls, ← List.append_assoc]
  rfl

/-! ### Settled values -/

variable {β : Type} (value : Yak → β) (new : β) (f : Field) (url : String)

/-- The value of a field of a yak after an update: the target's, if it is an update of the field. -/
def overwrite {τ : Type} (v : β) (c : Field × Yak × τ) : β :=
  if c.1 = f ∧ c.2.1.imageUrl = url then value c.2.1 else v

/-- The value of a field once the outstanding updates have landed in order. -/
def settled (s : Remote κ τ D) : β :=
  s.queue.foldl (overwrite value f url) (storedValue value new s.docs url)

variable {value new f url}

/-- When no call is outstanding, what is stored is settled. -/
theorem settled_of_quiescent (h : s.Quiescent) :
    settled value new f url s = storedValue value new s.docs url := by
  rw [settled, queue, h.1, h.2.1]
  rfl

/-- The calls of an action overwrite the settled values one after the other. -/
theorem Issued.settled {ι : Type} {s t : Remote (ι × κ) (ι × τ) D} {i : ι}
    {calls : List (Request κ τ D)} (h : Issued s (calls.map (Request.tag i)) t) :
    t.settled value new f url = (calls.filterMap Request.call?).foldl (overwrite value f url)
      (s.settled value new f url) := by
  rw [Remote.settled, h.queue, h.docs, List.foldl_append, Request.filterMap_call?_tag,
    List.foldl_map]
  rfl

end Remote

namespace World

variable {ι D : Type}

/-- A step in which no call fails or overtakes another. -/
def Event.Orderly : Event ι D → Prop
  | .act _ _ => True
  | .signal g => g.Succeeds ∧ g.InOrder

instance : (e : Event ι D) → Decidable e.Orderly
  | .act _ _ => isTrue trivial
  | .signal g => inferInstanceAs (Decidable (g.Succeeds ∧ g.InOrder))

variable [LinearOrder D] {P : Platform D} {s : World ι D}

/-- **Settled values.** A signal by which no call overtakes another and none fails leaves them as
they are. -/
theorem Sound.settled_signal (h : Sound s) {β : Type} {f : Field} {value : Yak → β} {new : β}
    (hvalue : f.IsValue value new) {g : Signal} (hg : (Event.signal g : Event ι D).Orderly)
    {o : Outcome (ι × Completion)} {remote : Remote (ι × Completion) (ι × Yak) D}
    (he : Remote.Effect P.distance s.remote g remote o) (url : String) :
    remote.settled value new f url = s.remote.settled value new f url := by
  rw [Remote.settled, Remote.settled, Remote.queue_signal he hg.2 (h.lost_eq_zero hg.1),
    List.foldl_append, h.storedValue_signal hvalue he]
  rfl

end World

end SnapYak
