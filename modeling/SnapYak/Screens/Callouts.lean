import SnapYak.Screens.Map
import SnapYak.Screens.Photos

/-!
# The callouts of the map

The callout of an annotation opens a message screen, with a photo from the cache of the map screen
or from Storage. Fetches replace the annotations at any time, also while a photo is on its way.

## Main definitions

* `MapCallouts`, `MapCallouts.machine` : the loaded map screen with its photos, and its runs.
* `MapCallouts.opening` : it opens message screens as the list screen does.

## Main results

* `MapCallouts.callouts_opened` : the message screens of the map screen.
-/

namespace SnapYak

/-- The map screen with its photos, once it is loaded. -/
structure MapCallouts (D : Type) where
  screen : MapScreen D
  photos : Photos

namespace MapCallouts

variable {D : Type}

/-- What can happen to the map screen. -/
inductive Event
  | screen (e : MapScreen.Event)
  /-- A tap on the callout of an annotation on the map. -/
  | tapCallout (k : ℕ)
  | deliverImage (n : ℕ)
  | failImage (n : ℕ)

/-- `mapView(_:annotationView:calloutAccessoryControlTapped:)`. -/
def calloutAccessoryControlTapped (s : MapCallouts D) (view : MessageAnnotation) :
    Option (MapCallouts D) := do
  match ← s.screen.vc.calloutAccessoryControlTapped view with
  | some data => some { s with photos := s.photos.openMessage data }
  | none => some s

/-- The yak of an annotation on the map. -/
def tapped (s : MapCallouts D) : Event → List Yak
  | .tapCallout k => (s.screen.vc.annotations[k]?.map MessageAnnotation.yak).toList
  | _ => []

/-- The yak that a tap opens. -/
def opened (s : MapCallouts D) (k : ℕ) : Option Yak := do
  let view ← s.screen.vc.annotations[k]?
  let yak ← s.screen.vc.calloutAccessoryControlTapped view
  yak

/-- The name of the photo that a tap fetches. -/
def fetchedUrls (s : MapCallouts D) : Event → List String
  | .tapCallout k =>
    match s.opened k with
    | some data => if (s.photos.imageCache data.imageUrl).isNone then [data.imageUrl] else []
    | none => []
  | _ => []

/-- The fetch of a photo that fails. -/
def failedImages (s : MapCallouts D) : Event → List ImageFetch
  | .failImage n => s.photos.images[n]?.toList
  | _ => []

/-- The map screen appears without a location only while no annotation is on the map. -/
def ClearMapWithoutLocation (s : MapCallouts D) : Event → Prop
  | .screen e => s.screen.ClearMapWithoutLocation e
  | _ => True

variable [LinearOrder D] [Zero D] [OfNat D 10000000]

/-- `viewDidLoad()`. -/
def start (defaults : UserDefaults D) (location : Option GeoPoint) : MapCallouts D :=
  let (vc, defaults, fetch) := MapViewController.initial.viewDidLoad defaults location
  ⟨⟨vc, defaults, fetch.toList⟩, .initial⟩

/-- All runs of the loaded map screen, `contents` being the bytes of the photos. -/
def machine (D : Type) [LinearOrder D] [Zero D] [OfNat D 10000000]
    (contents : ImageSource → Data) : Machine (MapCallouts D) Event where
  step s
    | .screen (.viewDidLoad _) => none
    | .screen e => do
      let screen ← (MapScreen.machine D).step s.screen e
      some { s with screen := screen }
    | .tapCallout k => do
      let view ← s.screen.vc.annotations[k]?
      s.calloutAccessoryControlTapped view
    | .deliverImage n => do
      let photos ← (Photos.machine contents).step s.photos (.deliverImage n)
      some { s with photos := photos }
    | .failImage n => do
      let photos ← (Photos.machine contents).step s.photos (.failImage n)
      some { s with photos := photos }

variable {contents : ImageSource → Data} {s t : MapCallouts D} {e : Event} {es : List Event}
  {defaults : UserDefaults D} {location : Option GeoPoint}

/-! ### What a step can do -/

theorem step_screen {e : MapScreen.Event} (h : (machine D contents).step s (.screen e) = some t) :
    ∃ screen, (MapScreen.machine D).step s.screen e = some screen ∧
      t = { s with screen := screen } := by
  cases e with
  | viewDidLoad => exact nomatch h
  | viewDidAppear | didUpdateLocations | deliver | fail =>
    obtain ⟨screen, hscreen, h⟩ := Option.bind_eq_some_iff.mp h
    exact ⟨screen, hscreen, (Option.some.inj h).symm⟩

theorem step_tapCallout {k : ℕ} (h : (machine D contents).step s (.tapCallout k) = some t) :
    t = { s with photos := ((s.opened k).map s.photos.openMessage).getD s.photos } := by
  obtain ⟨view, hview, h⟩ := Option.bind_eq_some_iff.mp h
  obtain ⟨data, hdata, h⟩ := Option.bind_eq_some_iff.mp h
  simp only [opened, hview, hdata, Option.bind_eq_bind, Option.bind_some]
  cases data with
  | none => exact (Option.some.inj h).symm
  | some data => exact (Option.some.inj h).symm

/-- What the map screen does with its photos. -/
def photoEvent (s : MapCallouts D) : Event → Option Photos.Event
  | .screen _ => none
  | .tapCallout k => (s.opened k).map .openMessage
  | .deliverImage n => some (.deliverImage n)
  | .failImage n => some (.failImage n)

/-- **The map screen opens message screens.** -/
def opening (D : Type) [LinearOrder D] [Zero D] [OfNat D 10000000]
    (contents : ImageSource → Data) :
    Machine.Simulation (machine D contents) (Photos.machine contents) where
  inv _ := True
  map := photos
  label := photoEvent
  inv_step _ _ := trivial
  run_step {s e t} _ ht := by
    cases e with
    | screen e =>
      obtain ⟨screen, -, rfl⟩ := step_screen ht
      rfl
    | tapCallout k =>
      obtain rfl := step_tapCallout ht
      rw [photoEvent]
      cases s.opened k <;> rfl
    | deliverImage n | failImage n =>
      obtain ⟨photos, hphotos, ht⟩ := Option.bind_eq_some_iff.mp ht
      obtain rfl := Option.some.inj ht
      exact Machine.run_singleton_eq_some.mpr hphotos

/-! ### Annotations and photos -/

section Labels

omit [LinearOrder D] [Zero D] [OfNat D 10000000]

/-- On a faithful map, a tap opens the yak of the annotation. -/
theorem opened_eq (hs : s.screen.vc.Faithful) (k : ℕ) :
    s.opened k = s.screen.vc.annotations[k]?.map MessageAnnotation.yak := by
  cases hview : s.screen.vc.annotations[k]? with
  | none => simp only [opened, hview, Option.bind_eq_bind, Option.bind_none, Option.map_none]
  | some view =>
    simp only [opened, hview, (hs view (List.mem_of_getElem? hview)).2, Option.bind_eq_bind,
      Option.bind_some, Option.map_some]

theorem flatMap_opened (s : MapCallouts D) (e : Event) :
    (s.photoEvent e).toList.flatMap Photos.Event.opened =
      match e with
      | .tapCallout k => (s.opened k).toList
      | _ => [] := by
  cases e with
  | tapCallout k => cases h : s.opened k <;> simp [photoEvent, h, Photos.Event.opened]
  | _ => rfl

theorem flatMap_failed (s : MapCallouts D) (e : Event) :
    (s.photoEvent e).toList.flatMap s.photos.failed = s.failedImages e := by
  cases e with
  | tapCallout k => cases h : s.opened k <;> simp [photoEvent, failedImages, h, Photos.failed]
  | failImage n => exact List.append_nil _
  | _ => rfl

theorem flatMap_fetchedUrls (s : MapCallouts D) (e : Event) :
    (s.photoEvent e).toList.flatMap s.photos.fetchedUrls = s.fetchedUrls e := by
  cases e with
  | tapCallout k =>
    cases h : s.opened k <;> simp [photoEvent, fetchedUrls, h, Photos.fetchedUrls]
  | _ => rfl

end Labels

/-- A tap on an annotation of a faithful map does not trap. -/
theorem exists_tapCallout (contents : ImageSource → Data) (hs : s.screen.vc.Faithful) {k : ℕ}
    (hk : k < s.screen.vc.annotations.length) :
    ∃ t, (machine D contents).step s (.tapCallout k) = some t := by
  have hview := List.getElem?_eq_getElem hk
  have hdata := (hs _ (List.mem_of_getElem? hview)).2
  refine ⟨{ s with photos := s.photos.openMessage s.screen.vc.annotations[k].yak }, ?_⟩
  simp only [machine, hview, calloutAccessoryControlTapped, hdata, Option.bind_eq_bind,
    Option.bind_some]

/-- A step keeps the map faithful, unless it empties `messages` under the annotations. -/
theorem faithful_step (hs : s.screen.vc.Faithful) (he : s.ClearMapWithoutLocation e)
    (h : (machine D contents).step s e = some t) : t.screen.vc.Faithful := by
  cases e with
  | screen e =>
    obtain ⟨screen, hscreen, rfl⟩ := step_screen h
    exact (MapScreen.faithful_step_iff hs hscreen).mpr he
  | tapCallout k =>
    obtain rfl := step_tapCallout h
    exact hs
  | deliverImage n | failImage n =>
    obtain ⟨photos, -, h⟩ := Option.bind_eq_some_iff.mp h
    obtain rfl := Option.some.inj h
    exact hs

theorem faithful_start (defaults : UserDefaults D) (location : Option GeoPoint) :
    (start defaults location).screen.vc.Faithful := by
  refine MapViewController.faithful_of_annotations_eq_nil ?_
  cases location <;> rfl

/-- The yaks that message screens are opened for are those of the annotations that are tapped. -/
theorem log_opened (hclear : (machine D contents).Along ClearMapWithoutLocation
      (start defaults location) es)
    (ht : (machine D contents).run (start defaults location) es = some t) :
    (Photos.machine contents).log (fun _ e => e.opened) .initial
      ((opening D contents).image (start defaults location) es) =
        (machine D contents).log tapped (start defaults location) es := by
  refine ((opening D contents).log_image flatMap_opened trivial ht).trans ?_
  refine Machine.log_congr_of_along (I := fun s => s.screen.vc.Faithful) faithful_step
    (fun {s e t} hs _ _ => ?_) (faithful_start defaults location) hclear ht
  cases e with
  | tapCallout k => simp only [opened_eq hs, tapped]
  | _ => rfl

/-- **The message screens of the map screen.** In every run in which the screen does not appear
without a location while annotations are on the map, whatever fetches, photos and taps arrive in
whatever order: no tap on a callout traps; each tap creates one message screen, which is handed to
`present` once, with the yak that the annotation was built from and the photo of this yak, or waits
for the photo, or its photo could not be fetched; and a photo that is cached is not fetched again
for the rest of the run. -/
theorem callouts_opened
    (hclear : (machine D contents).Along ClearMapWithoutLocation (start defaults location) es)
    (ht : (machine D contents).run (start defaults location) es = some t) :
    let M := machine D contents
    let yaks := M.log tapped (start defaults location) es
    (∀ k < t.screen.vc.annotations.length, ∃ u, M.step t (.tapCallout k) = some u) ∧
    (∀ newVC ∈ t.photos.presented, ∃ yak, yaks[newVC.number]? = some yak ∧ newVC.yak = some yak ∧
      newVC.cachedImage = some (contents (fetchImage yak.imageUrl))) ∧
    (t.photos.presented.map MessageViewController.number ++
      (t.photos.images ++ M.log failedImages (start defaults location) es).map
        fun fetch => fetch.newVC.number).Perm (List.range yaks.length) ∧
    ∀ url es' u, (t.photos.imageCache url).isSome → M.run t es' = some u →
      url ∉ M.log fetchedUrls t es' := by
  intro M yaks
  have hphotos := (opening D contents).run_image trivial ht
  have hopened := Photos.opened_run hphotos
  have hfailed : (Photos.machine contents).log Photos.failed .initial
      ((opening D contents).image (start defaults location) es) =
        M.log failedImages (start defaults location) es :=
    (opening D contents).log_image flatMap_failed trivial ht
  rw [log_opened hclear ht, hfailed] at hopened
  have hfaithful : t.screen.vc.Faithful :=
    Machine.run_induction (I := fun s => s.screen.vc.Faithful) faithful_step
      (faithful_start defaults location) hclear ht
  refine ⟨fun k hk => exists_tapCallout contents hfaithful hk, hopened.presented, hopened.numbers,
    fun url es' u hurl hu => ?_⟩
  have hsources := (Photos.loading contents).inv_run (Photos.inv_initial contents) hphotos
  have h := Photos.not_mem_fetchedUrls hsources hurl
    ((opening D contents).run_image (s := t) trivial hu)
  rwa [(opening D contents).log_image flatMap_fetchedUrls trivial hu] at h

/-- The second of two annotations is tapped. While its photo is fetched, another result with one
yak replaces both; the photo is handed over with its own yak, and taken from the cache later on. -/
theorem callouts_opened_photo_arrives_late :
    let yak : Yak := ⟨"user", "image_0.jpg", ⟨0, 0⟩, 0, 0, []⟩
    let yak' : Yak := ⟨"user", "image_1.jpg", ⟨1, 1⟩, 0, 5, []⟩
    let contents : ImageSource → Data
      | .http _ => []
      | .storage ref => ref.object.flatten.map fun c => c.val.toUInt8
    let es : List Event := [.screen (.deliver 0 [yak, yak']), .tapCallout 1,
      .screen (.viewDidAppear (some ⟨1, 1⟩)), .screen (.deliver 0 [yak']), .deliverImage 0,
      .tapCallout 0]
    ∃ t, (machine ℕ contents).run (start .empty (some ⟨0, 0⟩)) es = some t ∧
      t.photos.presented.length = 2 ∧ ∀ newVC ∈ t.photos.presented, newVC.yak = some yak' ∧
        newVC.cachedImage = some (contents (fetchImage yak'.imageUrl)) := by
  intro yak yak' contents es
  have hrun : (machine ℕ contents).run (start .empty (some ⟨0, 0⟩)) es = some _ := rfl
  have hclear : (machine ℕ contents).Along ClearMapWithoutLocation
      (start .empty (some ⟨0, 0⟩)) es :=
    ⟨trivial, trivial, trivial, trivial, trivial, trivial, trivial⟩
  refine ⟨_, hrun, rfl, fun newVC hmem => ?_⟩
  obtain ⟨yak'', htapped, hyak, himage⟩ := (callouts_opened hclear hrun).2.1 newVC hmem
  have hlog : (machine ℕ contents).log tapped (start .empty (some ⟨0, 0⟩)) es = [yak', yak'] := rfl
  rw [hlog] at htapped
  have heq : yak'' = yak' := by simpa using List.mem_of_getElem? htapped
  rw [heq] at hyak himage
  exact ⟨hyak, himage⟩

end MapCallouts

end SnapYak
