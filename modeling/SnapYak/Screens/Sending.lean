import SnapYak.Screens.UploadControls
import SnapYak.Store.Remote

/-!
# Sending a photo

The send button of the upload screen is disabled until a location is known. A touch of it asks for
a new location, writes the photo to a file, uploads it, and dismisses the screen
(`MessageUploadViewController.swift`). The completion of the upload creates the yak, at the location
that the controller has at that moment. By then the screen is gone, and locations may have arrived
since the touch.

Locations arrive in arrays that are not empty, as CoreLocation documents. The authorization is left
out: without it no location arrives.

## Main definitions

* `Sending`, `Sending.machine` : the send button, the uploads of the screen, and the locations.
* `Sending.located` : the location that an event delivers.
* `Sending.sent` : the yaks that the completions create.

## Main results

* `Sending.currentLocation_run` : the current location is the one that was delivered last.
* `Sending.sent_once` : what a screen sends.
-/

namespace SnapYak

/-- `sendButton`. -/
structure SendButton where
  isEnabled : Bool
  titleColor : UIColor
deriving DecidableEq

/-- The part of the upload screen that sends. -/
structure Sending where
  currentLocation : Option GeoPoint
  sendButton : SendButton
  /-- Whether the screen is presented. -/
  isPresented : Bool
  /-- The photos that are being uploaded, with their names. -/
  puts : List (String × Data)
deriving DecidableEq

namespace Sending

/-- The assignment to `currentLocation`, with its `didSet`. -/
def setCurrentLocation (s : Sending) (location : Option GeoPoint) : Sending :=
  match location with
  | some _ => { s with currentLocation := location, sendButton := ⟨true, .lightBlue⟩ }
  | none => { s with currentLocation := location }

/-- `viewDidLoad()`, for the `location` of the location manager. -/
def start (location : Option GeoPoint) : Sending :=
  let s : Sending := ⟨none, ⟨false, .gray⟩, true, []⟩
  match location with
  | some userLocation =>
    let color := UIColor.colorLiteral 0.1725490196 0.6156862745 0.8980392157 1
    { s with sendButton := ⟨true, color⟩ }.setCurrentLocation (some userLocation)
  | none => s

/-- What can happen. -/
inductive Event
  /-- `locationManager(_:didUpdateLocations:)`, with the first location and the others. -/
  | didUpdateLocations (first : GeoPoint) (rest : List GeoPoint)
  /-- `locationManager(_:didFailWithError:)`. -/
  | didFailWithError
  /-- A touch of the send button. -/
  | uploadButtonAction (guid : Guid) (jpegData : Option Data) (fileExists writeFails : Bool)
  | goBack
  /-- The completion of an upload without an error, at a date, the current one, which Firestore can
  convert. -/
  | complete (n : ℕ) (date : Date)
  | failPut (n : ℕ)

/-- The photo of a call of `putData`. -/
def photo? : Request Unit Unit Unit → Option (String × Data)
  | .putData guid data => some (photoName guid, data)
  | .getDocuments _ => none

/-- The photos that an event begins to upload. -/
def photos : Event → List (String × Data)
  | .uploadButtonAction guid jpegData fileExists writeFails =>
    (uploadButtonAction guid jpegData fileExists writeFails).filterMap photo?
  | _ => []

/-- All runs of the screen. The completion of an upload traps without a current location. -/
def machine : Machine Sending Event where
  step s
    | .didUpdateLocations first _ => some (s.setCurrentLocation (some first))
    | .didFailWithError => some s
    | .uploadButtonAction guid jpegData fileExists writeFails =>
      if s.isPresented && s.sendButton.isEnabled then
        let photos := photos (.uploadButtonAction guid jpegData fileExists writeFails)
        -- The screen is dismissed once the upload has begun.
        some { s with puts := s.puts ++ photos, isPresented := photos.isEmpty }
      else none
    | .goBack => if s.isPresented then some { s with isPresented := false } else none
    | .complete n _ => do
      let _ ← s.puts[n]?
      let _ ← s.currentLocation
      some { s with puts := s.puts.eraseIdx n }
    | .failPut n => do
      let _ ← s.puts[n]?
      some { s with puts := s.puts.eraseIdx n }

/-- The yaks that an event creates. -/
def sent (s : Sending) : Event → List Yak
  | .complete n date => (do
      let photo ← s.puts[n]?
      let currentLocation ← s.currentLocation
      some (newYak photo.1 currentLocation date)).toList
  | _ => []

/-- The location that an event delivers. -/
def located : Event → Option GeoPoint
  | .didUpdateLocations first _ => some first
  | _ => none

variable {s t : Sending} {e : Event} {es : List Event} {location : Option GeoPoint}

theorem length_photos_le (e : Event) : (photos e).length ≤ 1 := by
  cases e with
  | uploadButtonAction guid jpegData fileExists writeFails =>
    simp only [photos, uploadButtonAction]
    cases jpegData with
    | none => simp
    | some data => cases fileExists <;> cases writeFails <;> simp [photo?]
  | _ => simp [photos]

@[simp] theorem currentLocation_start (location : Option GeoPoint) :
    (start location).currentLocation = location := by
  cases location <;> rfl

/-- **The current location is the one that was delivered last.** -/
theorem currentLocation_run (hrun : machine.run s es = some t) :
    t.currentLocation = (es.filterMap located).getLast?.or s.currentLocation := by
  refine Machine.eq_last_write (q := currentLocation) (fun {s e t} ht => ?_) hrun
  cases e with
  | didUpdateLocations first rest =>
    obtain rfl := Option.some.inj ht
    rfl
  | didFailWithError =>
    obtain rfl := Option.some.inj ht
    rfl
  | uploadButtonAction guid jpegData fileExists writeFails =>
    simp only [machine] at ht
    split_ifs at ht
    obtain rfl := Option.some.inj ht
    rfl
  | goBack =>
    simp only [machine] at ht
    split_ifs at ht
    obtain rfl := Option.some.inj ht
    rfl
  | complete n date =>
    obtain ⟨photo, -, ht⟩ := Option.bind_eq_some_iff.mp ht
    obtain ⟨loc, -, ht⟩ := Option.bind_eq_some_iff.mp ht
    obtain rfl := Option.some.inj ht
    rfl
  | failPut n =>
    obtain ⟨photo, -, ht⟩ := Option.bind_eq_some_iff.mp ht
    obtain rfl := Option.some.inj ht
    rfl

/-! ### What a screen sends -/

/-- The button tells whether a location is known. -/
def ShowsLocation (s : Sending) : Prop :=
  s.sendButton = if s.currentLocation.isSome then ⟨true, .lightBlue⟩ else ⟨false, .gray⟩

/-- The screen after it has begun the uploads `begun` and created the yaks `created`. -/
structure Sends (s : Sending) (begun : List (String × Data)) (created : List Yak) : Prop where
  showsLocation : s.ShowsLocation
  length_begun : begun.length ≤ 1
  isPresented : s.isPresented = true → begun = []
  puts : s.puts ⊆ begun
  currentLocation : s.puts ≠ [] → s.currentLocation.isSome = true
  length_created : created.length + s.puts.length ≤ begun.length

theorem sends_start (location : Option GeoPoint) : (start location).Sends [] [] := by
  cases location <;> constructor <;> simp [start, setCurrentLocation, ShowsLocation]

variable {begun : List (String × Data)} {created : List Yak}

/-- An upload is over. -/
theorem Sends.erase (h : s.Sends begun created) {n : ℕ} {photo : String × Data}
    (hphoto : s.puts[n]? = some photo) {yaks : List Yak} (hyaks : yaks.length ≤ 1) :
    ({ s with puts := s.puts.eraseIdx n } : Sending).Sends begun (created ++ yaks) where
  showsLocation := h.showsLocation
  length_begun := h.length_begun
  isPresented := h.isPresented
  puts := fun p hp => h.puts (List.mem_of_mem_eraseIdx hp)
  currentLocation hne := h.currentLocation fun hnil => hne (by simp [hnil])
  length_created := by
    have hn := (List.getElem?_eq_some_iff.mp hphoto).1
    have hsum := h.length_created
    rw [List.length_append, List.length_eraseIdx_of_lt hn]
    omega

theorem Sends.step (h : s.Sends begun created) (ht : machine.step s e = some t) :
    t.Sends (begun ++ photos e) (created ++ s.sent e) := by
  cases e with
  | didUpdateLocations first rest =>
    obtain rfl := Option.some.inj ht
    simp only [photos, sent, List.append_nil]
    exact { h with
      showsLocation := rfl
      currentLocation := fun _ => rfl }
  | didFailWithError =>
    obtain rfl := Option.some.inj ht
    simpa only [photos, sent, List.append_nil] using h
  | uploadButtonAction guid jpegData fileExists writeFails =>
    simp only [machine] at ht
    split_ifs at ht with htouch
    obtain ⟨hpresented, henabled⟩ := Bool.and_eq_true_iff.mp htouch
    obtain rfl := Option.some.inj ht
    obtain rfl := h.isPresented hpresented
    have hlocated : s.currentLocation.isSome = true := by
      by_contra hnone
      have hbutton := h.showsLocation
      rw [ShowsLocation, if_neg hnone] at hbutton
      exact absurd henabled (by simp [hbutton])
    have hputs : s.puts = [] := List.subset_nil.mp h.puts
    have hcreated : created = [] := by
      have hsum := h.length_created
      exact List.length_eq_zero_iff.mp (by simp only [List.length_nil] at hsum; omega)
    simp only [sent, List.append_nil, List.nil_append, hputs, hcreated]
    refine ⟨h.showsLocation, length_photos_le _, ?_, fun _ => id, fun _ => hlocated, ?_⟩
    · exact List.isEmpty_iff.mp
    · simp
  | goBack =>
    simp only [machine] at ht
    split_ifs at ht
    obtain rfl := Option.some.inj ht
    simp only [photos, sent, List.append_nil]
    exact { h with isPresented := fun hpresented => absurd hpresented (by simp) }
  | complete n date =>
    obtain ⟨photo, hphoto, ht⟩ := Option.bind_eq_some_iff.mp ht
    obtain ⟨currentLocation, hlocation, ht⟩ := Option.bind_eq_some_iff.mp ht
    obtain rfl := Option.some.inj ht
    simp only [photos, List.append_nil]
    exact h.erase hphoto Option.length_toList_le
  | failPut n =>
    obtain ⟨photo, hphoto, ht⟩ := Option.bind_eq_some_iff.mp ht
    obtain rfl := Option.some.inj ht
    simp only [photos, List.append_nil]
    exact h.erase hphoto (by simp [sent])

theorem sends_run (hrun : machine.run (start location) es = some t) :
    t.Sends (es.flatMap photos) (machine.log sent (start location) es) := by
  rw [← Machine.log_label hrun]
  exact Machine.history_induction₂ (fun h ht => h.step ht) (sends_start location) hrun

/-- An upload can complete whenever it is outstanding. -/
theorem Sends.exists_complete_iff (h : s.Sends begun created) {n : ℕ} {date : Date} :
    (∃ u, machine.step s (.complete n date) = some u) ↔ n < s.puts.length := by
  constructor
  · rintro ⟨u, hu⟩
    obtain ⟨photo, hphoto, -⟩ := Option.bind_eq_some_iff.mp hu
    exact (List.getElem?_eq_some_iff.mp hphoto).1
  · intro hn
    obtain ⟨loc, hloc⟩ := Option.isSome_iff_exists.mp
      (h.currentLocation (List.ne_nil_of_length_pos (by omega)))
    refine ⟨{ s with puts := s.puts.eraseIdx n }, ?_⟩
    simp only [machine, List.getElem?_eq_getElem hn, hloc, Option.bind_eq_bind, Option.bind_some]

/-- **What a screen sends.** The send button can be touched exactly while a location is known. Of a
screen at most one photo is uploaded, and at most one yak created. No completion traps, and a yak is
created at the location that was delivered last before the completion, whatever the location at the
touch of the button was. -/
theorem sent_once (hrun : machine.run (start location) es = some t) :
    t.ShowsLocation ∧ (machine.log sent (start location) es).length ≤ (es.flatMap photos).length ∧
      (es.flatMap photos).length ≤ 1 ∧
      (∀ n date, (∃ u, machine.step t (.complete n date) = some u) ↔ n < t.puts.length) ∧
      ∀ y ∈ machine.log sent (start location) es, ∃ es₁ n date es₂ photo currentLocation,
        es = es₁ ++ .complete n date :: es₂ ∧ photo ∈ es₁.flatMap photos ∧
        (es₁.filterMap located).getLast?.or location = some currentLocation ∧
        y = newYak photo.1 currentLocation date := by
  have hsends := sends_run hrun
  refine ⟨hsends.showsLocation, ?_, hsends.length_begun, fun _ _ => hsends.exists_complete_iff,
    fun y hy => ?_⟩
  · have hsum := hsends.length_created
    omega
  · obtain ⟨es₁, e, es₂, u, rfl, hu, hy⟩ := (Machine.mem_log_iff hrun).mp hy
    have hlocation := currentLocation_run hu
    cases e with
    | complete n date =>
      obtain ⟨photo, hphoto, hy⟩ := Option.bind_eq_some_iff.mp (Option.mem_toList.mp hy)
      obtain ⟨loc, hloc, hy⟩ := Option.bind_eq_some_iff.mp hy
      refine ⟨es₁, n, date, es₂, photo, loc, rfl, ?_, ?_, (Option.some.inj hy).symm⟩
      · exact (sends_run hu).puts (List.mem_of_getElem? hphoto)
      · rw [← currentLocation_start location, ← hlocation, hloc]
    | _ => exact absurd hy (by simp [sent])

/-- A location arrives while the photo is on its way: the yak is created there, and not where the
button was touched. -/
theorem sent_once_location_arrives_meanwhile :
    let guid : Guid := .ofString "0" (by decide)
    let es : List Event := [.didUpdateLocations ⟨1, 1⟩ [], .uploadButtonAction guid (some [7]) false
      false, .didUpdateLocations ⟨2, 2⟩ [], .complete 0 5]
    machine.log sent (start none) es = [newYak (photoName guid) ⟨2, 2⟩ 5] ∧
      ∃ es₁ n date es₂, es = es₁ ++ .complete n date :: es₂ ∧
        (es₁.filterMap located).getLast? = some ⟨2, 2⟩ := by
  intro guid es
  have hlog : machine.log sent (start none) es = [newYak (photoName guid) ⟨2, 2⟩ 5] := rfl
  obtain ⟨t, hrun⟩ : ∃ t, machine.run (start none) es = some t := ⟨_, rfl⟩
  obtain ⟨-, -, -, -, hsent⟩ := sent_once hrun
  obtain ⟨es₁, n, date, es₂, photo, loc, hes, -, hloc, hy⟩ :=
    hsent (newYak (photoName guid) ⟨2, 2⟩ 5) (by rw [hlog]; exact List.mem_singleton_self _)
  have hsame : (⟨2, 2⟩ : GeoPoint) = loc := congrArg Yak.location hy
  exact ⟨hlog, es₁, n, date, es₂, hes, by rw [hsame, ← hloc, Option.or_none]⟩

end Sending

end SnapYak
