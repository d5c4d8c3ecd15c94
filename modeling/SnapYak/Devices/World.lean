import SnapYak.Devices.Device
import SnapYak.Store.Integrity

/-!
# Devices and the back end

A world has any number of devices and one back end. A step is an action on a device, whose calls are
issued to the back end at once, or a signal of the services, whose callback may run a completion on
the device that issued the call.

The back end of a world takes the steps of `Remote.machine`, so what holds in every run of that
machine holds in every run of a world.

## Main definitions

* `World`, `World.Event`, `World.machine` : devices and the back end.
* `World.Effect` : the ways a step can act.

## Main results

* `World.effect_of_step` : there are no other ways.
* `World.exists_remote_run` : the back end of a world takes the steps of `Remote.machine`.
-/

namespace SnapYak

/-- Devices `ι` with one back end. A completion and an update carry the device they belong to, an
update also the copy that it started from. -/
structure World (ι D : Type) where
  remote : Remote (ι × Completion) (ι × Yak) D
  devices : ι → Device D

/-- The call `r` as one of the device `i`. -/
def Request.tag {ι κ τ D : Type} (i : ι) : Request κ τ D → Request (ι × κ) (ι × τ) D
  | .getDocuments (.fetchYaks loc radius k) => .getDocuments (.fetchYaks loc radius (i, k))
  | .getDocuments (.update f targetYak c) => .getDocuments (.update f targetYak (i, c))
  | .putData guid data => .putData guid data

@[simp] theorem Request.call?_tag {ι κ τ D : Type} (i : ι) (r : Request κ τ D) :
    (r.tag i).call? = r.call?.map fun c => (c.1, c.2.1, (i, c.2.2)) := by
  cases r with
  | getDocuments cb => cases cb <;> rfl
  | putData guid data => rfl

theorem Request.filterMap_call?_tag {ι κ τ D : Type} (i : ι) (calls : List (Request κ τ D)) :
    (calls.map (Request.tag i)).filterMap Request.call? =
      (calls.filterMap Request.call?).map fun c => (c.1, c.2.1, (i, c.2.2)) := by
  rw [List.filterMap_map, List.map_filterMap]
  exact List.filterMap_congr fun r _ => r.call?_tag i

namespace Remote

variable {κ τ D : Type}

/-- The calls of a list, one after the other. -/
def issueAll (s : Remote κ τ D) : List (Request κ τ D) → Option (Remote κ τ D)
  | [] => some s
  | r :: calls => (s.issue r).bind fun t => issueAll t calls

/-- What the calls add to the back end: reads without snapshots, for the updates among them. -/
structure Issued (s : Remote κ τ D) (calls : List (Request κ τ D)) (t : Remote κ τ D) : Prop where
  docs : t.docs = s.docs
  writes : t.writes = s.writes
  adds : t.adds = s.adds
  reads : ∃ rs, t.reads = s.reads ++ rs ∧ rs.filterMap Read.call? = calls.filterMap Request.call? ∧
    ∀ r ∈ rs, r.rawSnapshot = none

theorem issued_of_issueAll {s t : Remote κ τ D} {calls : List (Request κ τ D)}
    (h : s.issueAll calls = some t) : Issued s calls t := by
  induction calls generalizing s with
  | nil =>
    obtain rfl := Option.some.inj h
    exact ⟨rfl, rfl, rfl, [], (List.append_nil _).symm, rfl, by simp⟩
  | cons r calls ih =>
    obtain ⟨u, hu, h⟩ := Option.bind_eq_some_iff.mp h
    obtain ⟨hdocs, hwrites, hadds, rs, hrs, hcalls, hsnap⟩ := ih h
    cases r with
    | getDocuments cb =>
      obtain rfl := Option.some.inj hu
      refine ⟨hdocs, hwrites, hadds, ⟨cb, none⟩ :: rs, by rw [hrs, List.append_assoc]; rfl, ?_,
        by simpa using hsnap⟩
      rw [List.filterMap_cons, List.filterMap_cons, hcalls]
      rfl
    | putData guid data =>
      simp only [Remote.issue] at hu
      split_ifs at hu
      obtain rfl := Option.some.inj hu
      exact ⟨hdocs, hwrites, hadds, rs, hrs, hcalls, hsnap⟩

theorem Integrity.issueAll {s t : Remote κ τ D} (hs : Integrity s) {calls : List (Request κ τ D)}
    (h : s.issueAll calls = some t) : Integrity t := by
  induction calls generalizing s with
  | nil => exact Option.some.inj h ▸ hs
  | cons r calls ih =>
    obtain ⟨u, hu, h⟩ := Option.bind_eq_some_iff.mp h
    exact ih (hs.issue hu) h

theorem run_issueAll [LE D] [DecidableLE D] {distance : GeoPoint → GeoPoint → D}
    {s t : Remote κ τ D} {calls : List (Request κ τ D)} (h : s.issueAll calls = some t) :
    (machine κ τ distance).run s (calls.map .issue) = some t := by
  induction calls generalizing s with
  | nil => exact h
  | cons r calls ih =>
    obtain ⟨u, hu, h⟩ := Option.bind_eq_some_iff.mp h
    exact Machine.run_cons_eq_some.mpr ⟨u, hu, ih h⟩

/-- The updates among the calls become outstanding. -/
theorem Issued.outstanding {s t : Remote κ τ D} {calls : List (Request κ τ D)}
    (h : Issued s calls t) :
    t.outstanding = s.outstanding + ↑(calls.filterMap Request.call?) := by
  obtain ⟨rs, hrs, hcalls, -⟩ := h.reads
  rw [Remote.outstanding, h.writes, hrs, List.filterMap_append, hcalls, ← List.append_assoc]
  rfl

end Remote

namespace World

variable {ι D : Type} [DecidableEq ι]

/-- An action on a device or a signal of the services. -/
inductive Event (ι D : Type)
  | act (i : ι) (a : Action D)
  | signal (g : Signal)

/-- A step in which no call fails. -/
def Event.Succeeds : Event ι D → Prop
  | .act _ _ => True
  | .signal g => g.Succeeds

instance : (e : Event ι D) → Decidable e.Succeeds
  | .act _ _ => isTrue trivial
  | .signal g => inferInstanceAs (Decidable g.Succeeds)

/-- The device `i` is now `d`. -/
def setDevice (s : World ι D) (i : ι) (d : Device D) : World ι D :=
  { s with devices := Function.update s.devices i d }

variable [LinearOrder D]

/-- What a callback does on the devices; a trap ends the app on its device. -/
def settle (P : Platform D) (s : World ι D) : Outcome (ι × Completion) → Option (World ι D)
  | .nothing => some s
  | .completion k yaks => some (s.setDevice k.1 ((s.devices k.1).complete P k.2 yaks))
  | .trap => none

variable [Zero D] [OfNat D 10000000]

/-- The runs of a world. -/
def machine (ι : Type) [DecidableEq ι] (P : Platform D) : Machine (World ι D) (Event ι D) where
  step s
    | .act i a => do
      let r ← (s.devices i).act P a
      let remote ← s.remote.issueAll (r.2.map (Request.tag i))
      some ({ s with remote := remote }.setDevice i r.1)
    | .signal g => do
      let r ← s.remote.signal P.distance g
      { s with remote := r.1 }.settle P r.2

/-! ### What a step can do -/

/-- The ways a step can act. -/
inductive Effect (P : Platform D) (s : World ι D) : Event ι D → World ι D → Prop
  | act {i : ι} {a : Action D} {d : Device D} {calls : Device.Calls D}
      {remote : Remote (ι × Completion) (ι × Yak) D} (hact : (s.devices i).Effect a d calls)
      (hissue : s.remote.issueAll (calls.map (Request.tag i)) = some remote) :
      Effect P s (.act i a) ({ s with remote := remote }.setDevice i d)
  | signal {g : Signal} {remote : Remote (ι × Completion) (ι × Yak) D}
      (hsignal : Remote.Effect P.distance s.remote g remote .nothing) :
      Effect P s (.signal g) { s with remote := remote }
  | completed {g : Signal} {remote : Remote (ι × Completion) (ι × Yak) D} {i : ι}
      {k : Completion} {yaks : List Yak}
      (hsignal : Remote.Effect P.distance s.remote g remote (.completion (i, k) yaks)) :
      Effect P s (.signal g)
        ({ s with remote := remote }.setDevice i ((s.devices i).complete P k yaks))

variable {P : Platform D} {s t : World ι D}

/-- A step of the user: the action of the device, and its calls. -/
theorem step_act_eq_some {i : ι} {a : Action D} :
    (machine ι P).step s (.act i a) = some t ↔ ∃ d calls remote,
      (s.devices i).act P a = some (d, calls) ∧
      s.remote.issueAll (calls.map (Request.tag i)) = some remote ∧
      t = { s with remote := remote }.setDevice i d := by
  simp only [machine, Option.bind_eq_bind, Option.bind_eq_some_iff, Option.some.injEq, Prod.exists]
  constructor
  · rintro ⟨d, calls, hact, remote, hissue, rfl⟩
    exact ⟨d, calls, remote, hact, hissue, rfl⟩
  · rintro ⟨d, calls, remote, hact, hissue, rfl⟩
    exact ⟨d, calls, hact, remote, hissue, rfl⟩

/-- Every step is one of the list. -/
theorem effect_of_step {e : Event ι D} (h : (machine ι P).step s e = some t) : Effect P s e t := by
  cases e with
  | act i a =>
    obtain ⟨d, calls, remote, hact, hissue, rfl⟩ := step_act_eq_some.mp h
    exact .act (Device.effect_of_act hact) hissue
  | signal g =>
    simp only [machine, Option.bind_eq_bind, Option.bind_eq_some_iff] at h
    obtain ⟨⟨remote, o⟩, hsignal, h⟩ := h
    have he := Remote.effect_of_signal hsignal
    cases o with
    | nothing =>
      obtain rfl := Option.some.inj h
      exact .signal he
    | completion k yaks =>
      obtain rfl := Option.some.inj h
      exact .completed he
    | trap => exact absurd h (by simp [settle])

/-- The back end of a world takes steps of `Remote.machine`. -/
theorem exists_remote_run_of_step {e : Event ι D} (h : (machine ι P).step s e = some t) :
    ∃ es, (Remote.machine _ _ P.distance).run s.remote es = some t.remote := by
  cases e with
  | act i a =>
    obtain ⟨d, calls, remote, -, hissue, rfl⟩ := step_act_eq_some.mp h
    exact ⟨_, Remote.run_issueAll hissue⟩
  | signal g =>
    simp only [machine, Option.bind_eq_bind, Option.bind_eq_some_iff] at h
    obtain ⟨⟨remote, o⟩, hsignal, h⟩ := h
    have hstep : (Remote.machine _ _ P.distance).step s.remote (.signal g) = some remote := by
      simp only [Remote.machine, hsignal, Option.map_some]
    refine ⟨[.signal g], Machine.run_singleton_eq_some.mpr ?_⟩
    cases o with
    | nothing => exact Option.some.inj h ▸ hstep
    | completion k yaks => exact Option.some.inj h ▸ hstep
    | trap => exact absurd h (by simp [settle])

/-- **The back end of a world.** Every run of a world is one of the back end. -/
theorem exists_remote_run {es : List (Event ι D)} (h : (machine ι P).run s es = some t) :
    ∃ es', (Remote.machine _ _ P.distance).run s.remote es' = some t.remote :=
  Machine.run_simulates World.remote (fun h => exists_remote_run_of_step h) h

end World

end SnapYak
