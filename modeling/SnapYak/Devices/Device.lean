import SnapYak.Screens.Map
import SnapYak.Store.Remote

/-!
# One device

A device runs the list screen and the map screen and presents message screens and comments screens
over them. Each presented screen holds a copy of a yak, taken when it was opened: a message screen
from a row of the list or from a callout of the map, a comments screen from a message screen.

`Device.act` is what the user and the system do on a device, with the calls it issues. The copy that
a vote or a reply starts from is recorded as the caller of the update; no definition reads it.

## Main definitions

* `Device`, `Action`, `Device.act` : a device and its event handlers.
* `Device.complete` : the completions of its fetches.
* `Device.copies` : the copies of yaks that its screens hold.
* `Device.Effect` : the ways an action can act.

## Main results

* `Device.effect_of_act` : there are no other ways.
* `Device.mem_copies_complete` : a completion brings in fetched copies only.
-/

namespace SnapYak

/-! ### The comments screen -/

/-- A yak with one more comment. -/
def Yak.addComment (y : Yak) (comment : String) : Yak :=
  { y with comments := y.comments ++ [comment] }

/-- `CommentsViewController.reply(_:)`: the copy of the screen with the comment, and the records
handed to `updateComments`. -/
def CommentsViewController.reply (yak : Yak) (comment : String) : Yak × List Yak :=
  let yak := yak.addComment comment
  (yak, [yak])

/-- `MessageViewController.prepare(for:sender:)`: the yak handed to the comments screen. -/
def MessageViewController.prepare (yak : Yak) : Yak := yak

/-! ### Devices -/

/-- The completions of the fetches of a device. -/
inductive Completion
  /-- Of `checkForNewYaks`. -/
  | refreshList
  /-- Of `didUpdateLocations` on the list screen. -/
  | updateList
  /-- Of every fetch of the map screen. -/
  | map

/-- A device. -/
structure Device (D : Type) where
  defaults : UserDefaults D
  /-- `locManager.location`. -/
  location : Option GeoPoint
  list : MessagesListViewController D
  map : MapViewController D
  /-- Message screens that wait for their image before they are presented. -/
  openings : List Yak
  messageScreens : List Yak
  commentsScreens : List Yak

/-- What the user and the system do on a device. The numbers are positions of screens. -/
inductive Action (D : Type)
  | changeLocation (location : Option GeoPoint)
  | loadList (selectedSegmentIndex : ℕ)
  | showList
  | pullToRefresh
  | updateList (location : GeoPoint)
  | selectSegment (selectedSegmentIndex : ℕ)
  | voteRow (dir : Direction) (tag : ℕ)
  | selectRow (row : ℕ)
  | loadMap
  | showMap
  | updateMap (location : GeoPoint)
  | tapCallout (n : ℕ)
  | present (n : ℕ)
  | voteMessage (dir : Direction) (n : ℕ)
  | closeMessage (n : ℕ)
  | openComments (n : ℕ)
  | reply (n : ℕ) (comment : String)
  | closeComments (n : ℕ)
  | upload (guid : Guid) (jpegData : Option Data) (fileExists writeFails : Bool)
  | loadSettings
  | saveRadius (rad : Option D)

namespace Device

variable {D : Type}

/-- A device on which the app has not run. -/
def unused [OfNat D 10000000] (location : Option GeoPoint) : Device D where
  defaults := .empty
  location := location
  list := ⟨10000000, [], 0, false⟩
  map := .initial
  openings := []
  messageScreens := []
  commentsScreens := []

/-- The copies of yaks that the screens hold. -/
def copies (d : Device D) : List Yak :=
  d.list.messages ++ d.map.messages.getD [] ++ d.openings ++ d.messageScreens ++ d.commentsScreens

variable {d d' : Device D}

theorem mem_copies {y : Yak} : y ∈ d.copies ↔ y ∈ d.list.messages ∨ y ∈ d.map.messages.getD [] ∨
    y ∈ d.openings ∨ y ∈ d.messageScreens ∨ y ∈ d.commentsScreens := by
  simp only [copies, List.mem_append, or_assoc]

section Complete

variable [LinearOrder D]

/-- The completions of the fetches. -/
def complete (P : Platform D) (d : Device D) (completion : Completion) (yaks : List Yak) :
    Device D :=
  match completion with
  | .refreshList => { d with list := d.list.refreshYaks P d.location yaks }
  | .updateList => { d with list := d.list.showYaks P d.location yaks }
  | .map => { d with map := d.map.showYaks yaks }

variable {P : Platform D}

/-- A completion brings in fetched copies only. -/
theorem mem_copies_complete {completion : Completion} {yaks : List Yak} {y : Yak}
    (hy : y ∈ (d.complete P completion yaks).copies) : y ∈ d.copies ∨ y ∈ yaks := by
  cases completion with
  | refreshList =>
    rw [mem_copies] at hy ⊢
    rcases hy with hy | hy
    · exact Or.inr (MessagesListViewController.mem_refreshYaks.mp hy)
    · exact Or.inl (Or.inr hy)
  | updateList =>
    rw [mem_copies] at hy ⊢
    rcases hy with hy | hy
    · exact Or.inr (MessagesListViewController.mem_showYaks.mp hy)
    · exact Or.inl (Or.inr hy)
  | map =>
    rw [mem_copies] at hy ⊢
    rcases hy with hy | hy | hy
    exacts [Or.inl (Or.inl hy), Or.inr hy, Or.inl (Or.inr (Or.inr hy))]

theorem defaults_complete (completion : Completion) (yaks : List Yak) :
    (d.complete P completion yaks).defaults = d.defaults := by
  cases completion <;> rfl

end Complete

/-! ### What an action can do -/

/-- The calls of an action, with the copy that an update starts from. -/
abbrev Calls (D : Type) := List (Request Completion Yak D)

/-- The call of a fetch. -/
def fetchCalls (completion : Completion) (fetch : Option (GeoPoint × D)) : Calls D :=
  fetch.toList.map fun p => .getDocuments (.fetchYaks p.1 p.2 completion)

/-- The direction of a vote and the copy it starts from. -/
def tapped (d : Device D) : Action D → Option (Direction × Yak)
  | .voteRow dir tag => d.list.messages[tag]?.map fun yak => (dir, yak)
  | .voteMessage dir n => d.messageScreens[n]?.map fun yak => (dir, yak)
  | _ => none

/-- The copy that a reply starts from, and the comment. -/
def replied (d : Device D) : Action D → Option (Yak × String)
  | .reply n comment => d.commentsScreens[n]?.map fun yak => (yak, comment)
  | _ => none

/-- The ways an action can act: on neither lists nor copies, as a vote, or as a reply. -/
inductive Effect (d : Device D) (a : Action D) : Device D → Calls D → Prop
  | quiet {d' : Device D} {calls : Calls D} (htapped : d.tapped a = none)
      (hreplied : d.replied a = none) (hcalls : ∀ r ∈ calls, r.call? = none)
      (hvoted : ∀ dir, d'.defaults.voted dir = d.defaults.voted dir)
      (hcopies : ∀ y ∈ d'.copies, y ∈ d.copies) : Effect d a d' calls
  | vote {d' : Device D} {dir : Direction} {yak : Yak} (htapped : d.tapped a = some (dir, yak))
      (hreplied : d.replied a = none) (hyak : yak ∈ d.copies)
      (hdefaults : d'.defaults = (SnapYak.vote dir d.defaults yak).defaults)
      (hcopies : ∀ y ∈ d'.copies, y ∈ d.copies ∨ y = (SnapYak.vote dir d.defaults yak).yak) :
      Effect d a d' ((SnapYak.vote dir d.defaults yak).passed.map fun targetYak =>
        updateYakVote targetYak yak)
  | reply {d' : Device D} {yak : Yak} {comment : String} (htapped : d.tapped a = none)
      (hreplied : d.replied a = some (yak, comment)) (hyak : yak ∈ d.copies)
      (hvoted : ∀ dir, d'.defaults.voted dir = d.defaults.voted dir)
      (hcopies : ∀ y ∈ d'.copies, y ∈ d.copies ∨ y = yak.addComment comment) :
      Effect d a d' [updateComments (yak.addComment comment) yak]

/-- The update of a vote. -/
theorem filterMap_call?_vote (dir : Direction) (defaults : UserDefaults D) (yak : Yak) :
    (((SnapYak.vote dir defaults yak).passed.map fun targetYak =>
      updateYakVote targetYak yak : Calls D)).filterMap Request.call? =
        [(.likes, (SnapYak.vote dir defaults yak).yak, yak)] := by
  rw [passed_vote]
  rfl

theorem call?_fetchCalls {completion : Completion} {fetch : Option (GeoPoint × D)} :
    ∀ r ∈ fetchCalls completion fetch, r.call? = none := by
  intro r hr
  obtain ⟨p, -, rfl⟩ := List.mem_map.mp hr
  rfl

theorem call?_uploadButtonAction {guid : Guid} {jpegData : Option Data}
    {fileExists writeFails : Bool} :
    ∀ r ∈ (uploadButtonAction guid jpegData fileExists writeFails : Calls D), r.call? = none := by
  intro r hr
  simp only [uploadButtonAction] at hr
  split at hr
  · simp at hr
  · split_ifs at hr <;> simp_all [Request.call?]

/-! ### The event handlers -/

variable [LinearOrder D] [Zero D] [OfNat D 10000000]

/-- The event handlers of a device. -/
def act (P : Platform D) (d : Device D) : Action D → Option (Device D × Calls D)
  | .changeLocation location => some ({ d with location := location }, [])
  | .loadList selectedSegmentIndex =>
    let r := MessagesListViewController.viewDidLoad selectedSegmentIndex d.defaults d.location
    some ({ d with list := r.1, defaults := r.2.1 }, fetchCalls .refreshList r.2.2)
  | .showList =>
    let r := d.list.viewDidAppear d.defaults d.location
    some ({ d with list := r.1, defaults := r.2.1 }, fetchCalls .refreshList r.2.2)
  | .pullToRefresh =>
    let r := d.list.pullToRefresh d.location
    some ({ d with list := r.1 }, fetchCalls .refreshList r.2)
  | .updateList location =>
    some (d, fetchCalls .updateList (some (d.list.didUpdateLocations location)))
  | .selectSegment selectedSegmentIndex =>
    let list := { d.list with selectedSegmentIndex := selectedSegmentIndex }
    some ({ d with list := list.handleSort P d.location }, [])
  | .voteRow dir tag => do
    let yak ← d.list.messages[tag]?
    let r ← MessagesListViewController.vote dir d.defaults d.list.messages tag
    some ({ d with defaults := r.1, list := { d.list with messages := r.2.1 } },
      r.2.2.map fun targetYak => updateYakVote targetYak yak)
  | .selectRow row => do
    let data ← d.list.messages[row]?
    some ({ d with openings := d.openings ++ [data] }, [])
  | .loadMap =>
    let r := d.map.viewDidLoad d.defaults d.location
    some ({ d with map := r.1, defaults := r.2.1 }, fetchCalls .map r.2.2)
  | .showMap => do
    let r ← d.map.viewDidAppear d.location
    some ({ d with map := r.1 }, fetchCalls .map r.2)
  | .updateMap location => do
    let fetch ← d.map.didUpdateLocations location
    some (d, fetchCalls .map (some fetch))
  | .tapCallout n => do
    let view ← d.map.annotations[n]?
    let data ← d.map.calloutAccessoryControlTapped view
    some ({ d with openings := d.openings ++ data.toList }, [])
  | .present n => do
    let yak ← d.openings[n]?
    some ({ d with
      openings := d.openings.eraseIdx n
      messageScreens := d.messageScreens ++ [yak] }, [])
  | .voteMessage dir n => do
    let yak ← d.messageScreens[n]?
    let r ← MessageViewController.vote dir d.defaults yak
    some ({ d with defaults := r.1, messageScreens := d.messageScreens.set n r.2.1 },
      r.2.2.map fun targetYak => updateYakVote targetYak yak)
  | .closeMessage n => do
    let _ ← d.messageScreens[n]?
    some ({ d with messageScreens := d.messageScreens.eraseIdx n }, [])
  | .openComments n => do
    let yak ← d.messageScreens[n]?
    some ({ d with
      commentsScreens := d.commentsScreens ++ [MessageViewController.prepare yak] }, [])
  | .reply n comment => do
    let yak ← d.commentsScreens[n]?
    let r := CommentsViewController.reply yak comment
    some ({ d with commentsScreens := d.commentsScreens.set n r.1 },
      r.2.map fun targetYak => updateComments targetYak yak)
  | .closeComments n => do
    let _ ← d.commentsScreens[n]?
    some ({ d with commentsScreens := d.commentsScreens.eraseIdx n }, [])
  | .upload guid jpegData fileExists writeFails =>
    some (d, uploadButtonAction guid jpegData fileExists writeFails)
  | .loadSettings =>
    some ({ d with defaults := (SettingsViewController.viewDidLoad d.defaults).2 }, [])
  | .saveRadius rad =>
    some ({ d with defaults := SettingsViewController.saveRadius d.defaults rad }, [])

variable {P : Platform D} {calls : Calls D}

/-- Every action is one of the list. -/
theorem effect_of_act {a : Action D} (h : d.act P a = some (d', calls)) : d.Effect a d' calls := by
  cases a with
  | changeLocation location =>
    obtain ⟨rfl, rfl⟩ := Prod.mk.inj (Option.some.inj h)
    exact .quiet rfl rfl (by simp) (fun _ => rfl) (fun _ => id)
  | loadList selectedSegmentIndex =>
    obtain ⟨rfl, rfl⟩ := Prod.mk.inj (Option.some.inj h)
    refine .quiet rfl rfl call?_fetchCalls (fun dir => voted_loadRadius ..) fun y hy => ?_
    simp only [mem_copies, MessagesListViewController.messages_viewDidLoad] at hy ⊢
    exact Or.inr (hy.resolve_left List.not_mem_nil)
  | showList =>
    obtain ⟨rfl, rfl⟩ := Prod.mk.inj (Option.some.inj h)
    refine .quiet rfl rfl call?_fetchCalls (fun dir => voted_loadRadius ..) fun y hy => ?_
    simpa only [mem_copies, MessagesListViewController.messages_viewDidAppear] using hy
  | pullToRefresh =>
    obtain ⟨rfl, rfl⟩ := Prod.mk.inj (Option.some.inj h)
    refine .quiet rfl rfl call?_fetchCalls (fun _ => rfl) fun y hy => ?_
    simpa only [mem_copies, MessagesListViewController.pullToRefresh,
      MessagesListViewController.messages_checkForNewYaks] using hy
  | updateList location =>
    obtain ⟨rfl, rfl⟩ := Prod.mk.inj (Option.some.inj h)
    exact .quiet rfl rfl call?_fetchCalls (fun _ => rfl) (fun _ => id)
  | selectSegment selectedSegmentIndex =>
    obtain ⟨rfl, rfl⟩ := Prod.mk.inj (Option.some.inj h)
    refine .quiet rfl rfl (by simp) (fun _ => rfl) fun y hy => ?_
    simpa only [mem_copies, MessagesListViewController.perm_handleSort.mem_iff] using hy
  | voteRow dir tag =>
    simp only [act, Option.bind_eq_bind, Option.bind_eq_some_iff] at h
    obtain ⟨yak, hyak, r, hvote, h⟩ := h
    obtain ⟨_, hyak', -, rfl⟩ := MessagesListViewController.vote_eq_some.mp hvote
    obtain rfl := Option.some.inj (hyak.symm.trans hyak')
    obtain ⟨rfl, rfl⟩ := Prod.mk.inj (Option.some.inj h)
    refine .vote (by simp only [tapped, hyak, Option.map_some]) rfl
      (mem_copies.mpr (Or.inl (List.mem_of_getElem? hyak))) rfl fun y hy => ?_
    rw [mem_copies] at hy ⊢
    rcases hy with hy | hy
    · exact (List.mem_or_eq_of_mem_set hy).imp_left Or.inl
    · exact Or.inl (Or.inr hy)
  | selectRow row =>
    simp only [act, Option.bind_eq_bind, Option.bind_eq_some_iff] at h
    obtain ⟨yak, hyak, h⟩ := h
    obtain ⟨rfl, rfl⟩ := Prod.mk.inj (Option.some.inj h)
    refine .quiet rfl rfl (by simp) (fun _ => rfl) fun y hy => ?_
    simp only [mem_copies, List.mem_append, List.mem_singleton] at hy ⊢
    rcases hy with hy | hy | (hy | rfl) | hy
    exacts [Or.inl hy, Or.inr (Or.inl hy), Or.inr (Or.inr (Or.inl hy)),
      Or.inl (List.mem_of_getElem? hyak), Or.inr (Or.inr (Or.inr hy))]
  | loadMap =>
    obtain ⟨rfl, rfl⟩ := Prod.mk.inj (Option.some.inj h)
    refine .quiet rfl rfl call?_fetchCalls (fun dir => ?_) fun y hy => ?_
    · rw [MapViewController.defaults_viewDidLoad]
      exact voted_loadRadius ..
    · rw [mem_copies] at hy ⊢
      exact hy.imp_right (Or.imp_left MapViewController.mem_viewDidLoad)
  | showMap =>
    simp only [act, Option.bind_eq_bind, Option.bind_eq_some_iff] at h
    obtain ⟨r, hr, h⟩ := h
    obtain ⟨rfl, rfl⟩ := Prod.mk.inj (Option.some.inj h)
    refine .quiet rfl rfl call?_fetchCalls (fun _ => rfl) fun y hy => ?_
    rw [mem_copies] at hy ⊢
    exact hy.imp_right (Or.imp_left (MapViewController.mem_viewDidAppear hr))
  | updateMap location =>
    simp only [act, Option.bind_eq_bind, Option.bind_eq_some_iff] at h
    obtain ⟨fetch, -, h⟩ := h
    obtain ⟨rfl, rfl⟩ := Prod.mk.inj (Option.some.inj h)
    exact .quiet rfl rfl call?_fetchCalls (fun _ => rfl) (fun _ => id)
  | tapCallout n =>
    simp only [act, Option.bind_eq_bind, Option.bind_eq_some_iff] at h
    obtain ⟨view, -, data, hdata, h⟩ := h
    obtain ⟨rfl, rfl⟩ := Prod.mk.inj (Option.some.inj h)
    refine .quiet rfl rfl (by simp) (fun _ => rfl) fun y hy => ?_
    simp only [mem_copies, List.mem_append, Option.mem_toList] at hy ⊢
    rcases hy with hy | hy | (hy | rfl) | hy
    exacts [Or.inl hy, Or.inr (Or.inl hy), Or.inr (Or.inr (Or.inl hy)),
      Or.inr (Or.inl (MapViewController.mem_of_callout hdata)), Or.inr (Or.inr (Or.inr hy))]
  | present n =>
    simp only [act, Option.bind_eq_bind, Option.bind_eq_some_iff] at h
    obtain ⟨yak, hyak, h⟩ := h
    obtain ⟨rfl, rfl⟩ := Prod.mk.inj (Option.some.inj h)
    refine .quiet rfl rfl (by simp) (fun _ => rfl) fun y hy => ?_
    simp only [mem_copies, List.mem_append, List.mem_singleton] at hy ⊢
    rcases hy with hy | hy | hy | (hy | rfl) | hy
    exacts [Or.inl hy, Or.inr (Or.inl hy), Or.inr (Or.inr (Or.inl (List.mem_of_mem_eraseIdx hy))),
      Or.inr (Or.inr (Or.inr (Or.inl hy))), Or.inr (Or.inr (Or.inl (List.mem_of_getElem? hyak))),
      Or.inr (Or.inr (Or.inr (Or.inr hy)))]
  | voteMessage dir n =>
    simp only [act, Option.bind_eq_bind, Option.bind_eq_some_iff] at h
    obtain ⟨yak, hyak, r, hvote, h⟩ := h
    obtain ⟨-, rfl⟩ := MessageViewController.vote_eq_some.mp hvote
    obtain ⟨rfl, rfl⟩ := Prod.mk.inj (Option.some.inj h)
    refine .vote (by simp only [tapped, hyak, Option.map_some]) rfl
      (mem_copies.mpr (Or.inr (Or.inr (Or.inr (Or.inl (List.mem_of_getElem? hyak)))))) rfl
      fun y hy => ?_
    rw [mem_copies] at hy ⊢
    rcases hy with hy | hy | hy | hy | hy
    exacts [Or.inl (Or.inl hy), Or.inl (Or.inr (Or.inl hy)), Or.inl (Or.inr (Or.inr (Or.inl hy))),
      (List.mem_or_eq_of_mem_set hy).imp_left fun hy => Or.inr (Or.inr (Or.inr (Or.inl hy))),
      Or.inl (Or.inr (Or.inr (Or.inr (Or.inr hy))))]
  | closeMessage n =>
    simp only [act, Option.bind_eq_bind, Option.bind_eq_some_iff] at h
    obtain ⟨_, -, h⟩ := h
    obtain ⟨rfl, rfl⟩ := Prod.mk.inj (Option.some.inj h)
    refine .quiet rfl rfl (by simp) (fun _ => rfl) fun y hy => ?_
    rw [mem_copies] at hy ⊢
    exact hy.imp_right (Or.imp_right (Or.imp_right (Or.imp_left List.mem_of_mem_eraseIdx)))
  | openComments n =>
    simp only [act, Option.bind_eq_bind, Option.bind_eq_some_iff] at h
    obtain ⟨yak, hyak, h⟩ := h
    obtain ⟨rfl, rfl⟩ := Prod.mk.inj (Option.some.inj h)
    refine .quiet rfl rfl (by simp) (fun _ => rfl) fun y hy => ?_
    simp only [mem_copies, List.mem_append, List.mem_singleton, MessageViewController.prepare]
      at hy ⊢
    rcases hy with hy | hy | hy | hy | hy | rfl
    exacts [Or.inl hy, Or.inr (Or.inl hy), Or.inr (Or.inr (Or.inl hy)),
      Or.inr (Or.inr (Or.inr (Or.inl hy))), Or.inr (Or.inr (Or.inr (Or.inr hy))),
      Or.inr (Or.inr (Or.inr (Or.inl (List.mem_of_getElem? hyak))))]
  | reply n comment =>
    simp only [act, Option.bind_eq_bind, Option.bind_eq_some_iff] at h
    obtain ⟨yak, hyak, h⟩ := h
    obtain ⟨rfl, rfl⟩ := Prod.mk.inj (Option.some.inj h)
    refine .reply rfl (by simp only [replied, hyak, Option.map_some])
      (mem_copies.mpr (Or.inr (Or.inr (Or.inr (Or.inr (List.mem_of_getElem? hyak))))))
      (fun _ => rfl) fun y hy => ?_
    rw [mem_copies] at hy ⊢
    rcases hy with hy | hy | hy | hy | hy
    exacts [Or.inl (Or.inl hy), Or.inl (Or.inr (Or.inl hy)), Or.inl (Or.inr (Or.inr (Or.inl hy))),
      Or.inl (Or.inr (Or.inr (Or.inr (Or.inl hy)))),
      (List.mem_or_eq_of_mem_set hy).imp_left fun hy => Or.inr (Or.inr (Or.inr (Or.inr hy)))]
  | closeComments n =>
    simp only [act, Option.bind_eq_bind, Option.bind_eq_some_iff] at h
    obtain ⟨_, -, h⟩ := h
    obtain ⟨rfl, rfl⟩ := Prod.mk.inj (Option.some.inj h)
    refine .quiet rfl rfl (by simp) (fun _ => rfl) fun y hy => ?_
    rw [mem_copies] at hy ⊢
    exact hy.imp_right (Or.imp_right (Or.imp_right (Or.imp_right List.mem_of_mem_eraseIdx)))
  | upload guid jpegData fileExists writeFails =>
    obtain ⟨rfl, rfl⟩ := Prod.mk.inj (Option.some.inj h)
    exact .quiet rfl rfl call?_uploadButtonAction (fun _ => rfl) (fun _ => id)
  | loadSettings =>
    obtain ⟨rfl, rfl⟩ := Prod.mk.inj (Option.some.inj h)
    exact .quiet rfl rfl (by simp) (fun dir => voted_loadRadius ..) (fun _ => id)
  | saveRadius rad =>
    obtain ⟨rfl, rfl⟩ := Prod.mk.inj (Option.some.inj h)
    exact .quiet rfl rfl (by simp) (fun dir => by cases rad <;> cases dir <;> rfl) (fun _ => id)

end Device

end SnapYak
