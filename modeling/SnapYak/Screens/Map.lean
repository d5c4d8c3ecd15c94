import SnapYak.Screens.MessagesList

/-!
# The map screen

The map shows an annotation for each fetched yak. An annotation keeps the position of its yak in
`messages`, and its callout opens the yak at this position. Fetches replace `messages` and rebuild
the annotations together. An appearance of the screen without a location replaces `messages` by the
empty list and leaves the annotations on the map, where they then point past its end.

The title of an annotation is a text computed from the time stamp of its yak; the model keeps the
yak that the annotation was built from in its place.

## Main definitions

* `MessageAnnotation`, `MapViewController` : the state of the map screen, and its methods.
* `MapScreen.machine` : the runs of the map screen alone, with any results of its fetches.
* `MapViewController.Faithful` : every annotation opens its own yak.

## Main results

* `MapViewController.faithful_displayYaks` : rebuilt annotations are faithful.
* `MapScreen.faithful_iff` : the runs in which they stay faithful.
-/

namespace SnapYak

/-- An annotation, with the yak that it was built from. -/
structure MessageAnnotation where
  coordinate : GeoPoint
  index : Option ℕ
  yak : Yak

/-- The map screen; `radius` is `nil` before `viewDidLoad`. -/
structure MapViewController (D : Type) where
  radius : Option D
  messages : Option (List Yak)
  /-- The annotations on `mapView`. -/
  annotations : List MessageAnnotation

namespace MapViewController

variable {D : Type}

/-- The map screen before it is loaded. -/
def initial : MapViewController D := ⟨none, none, []⟩

/-- `displayYaks()`. Its callers have just assigned `messages`. -/
def displayYaks (vc : MapViewController D) : MapViewController D :=
  { vc with annotations := (vc.messages.getD []).mapIdx fun index yak =>
      { coordinate := yak.location, index := some index, yak := yak } }

/-- The completion of every fetch of the map screen. -/
def showYaks (vc : MapViewController D) (yaks : List Yak) : MapViewController D :=
  { vc with messages := some yaks }.displayYaks

/-- `viewDidAppear(_:)`. Before `viewDidLoad` the forced `locManager` traps, which is set when the
radius is. -/
def viewDidAppear (vc : MapViewController D) (location : Option GeoPoint) :
    Option (MapViewController D × Option (GeoPoint × D)) :=
  vc.radius.map fun radius => match location with
    | some userLocation => (vc, some (userLocation, radius))
    | none => ({ vc with messages := some [] }, none)

/-- `viewDidLoad()`. -/
def viewDidLoad [LinearOrder D] [Zero D] [OfNat D 10000000] (vc : MapViewController D)
    (defaults : UserDefaults D) (location : Option GeoPoint) :
    MapViewController D × UserDefaults D × Option (GeoPoint × D) :=
  let (radius, defaults) := loadRadius defaults
  let vc := { vc with radius := some radius }
  match location with
  | some userLocation => (vc, defaults, some (userLocation, radius))
  | none => ({ vc with messages := some [] }, defaults, none)

/-- `locationManager(_:didUpdateLocations:)`, for the first location of the update. -/
def didUpdateLocations (vc : MapViewController D) (location : GeoPoint) : Option (GeoPoint × D) :=
  vc.radius.map fun radius => (location, radius)

/-- `mapView(_:annotationView:calloutAccessoryControlTapped:)`: the yak handed to the message
screen, if any. The outer `none` is a subscript out of range; an annotation without an index has
the subscript `-1`. -/
def calloutAccessoryControlTapped (vc : MapViewController D) (view : MessageAnnotation) :
    Option (Option Yak) :=
  match vc.messages with
  | none => some none
  | some messages => view.index.bind fun index => messages[index]?.map some

/-! ### The radius of the map -/

theorem radius_viewDidAppear {vc vc' : MapViewController D} {location : Option GeoPoint}
    {fetch : Option (GeoPoint × D)} (h : vc.viewDidAppear location = some (vc', fetch)) :
    vc'.radius = vc.radius ∧ ∀ p ∈ fetch, vc.radius = some p.2 := by
  obtain ⟨radius, hradius, h⟩ := Option.map_eq_some_iff.mp h
  cases location with
  | none =>
    obtain ⟨rfl, rfl⟩ := Prod.mk.inj h
    exact ⟨rfl, by simp⟩
  | some loc =>
    obtain ⟨rfl, rfl⟩ := Prod.mk.inj h
    exact ⟨rfl, by simp [hradius]⟩

theorem radius_viewDidLoad [LinearOrder D] [Zero D] [OfNat D 10000000] (vc : MapViewController D)
    (defaults : UserDefaults D) (location : Option GeoPoint) :
    (vc.viewDidLoad defaults location).1.radius = some defaults.effectiveRadius ∧
    (vc.viewDidLoad defaults location).2.1.effectiveRadius = defaults.effectiveRadius ∧
    ∀ p ∈ (vc.viewDidLoad defaults location).2.2, p.2 = defaults.effectiveRadius := by
  have hdef := effectiveRadius_loadRadius defaults
  rw [← loadRadius_fst defaults] at hdef ⊢
  cases location with
  | none => exact ⟨rfl, hdef, by simp [viewDidLoad]⟩
  | some loc => exact ⟨rfl, hdef, by simp [viewDidLoad]⟩

/-! ### The yaks that the map holds -/

theorem mem_viewDidAppear {vc vc' : MapViewController D} {location : Option GeoPoint}
    {fetch : Option (GeoPoint × D)} (h : vc.viewDidAppear location = some (vc', fetch)) {y : Yak}
    (hy : y ∈ vc'.messages.getD []) : y ∈ vc.messages.getD [] := by
  obtain ⟨radius, -, h⟩ := Option.map_eq_some_iff.mp h
  cases location with
  | none =>
    obtain ⟨rfl, rfl⟩ := Prod.mk.inj h
    simp at hy
  | some loc =>
    obtain ⟨rfl, rfl⟩ := Prod.mk.inj h
    exact hy

theorem mem_viewDidLoad [LinearOrder D] [Zero D] [OfNat D 10000000] {vc : MapViewController D}
    {defaults : UserDefaults D} {location : Option GeoPoint} {y : Yak}
    (hy : y ∈ (vc.viewDidLoad defaults location).1.messages.getD []) :
    y ∈ vc.messages.getD [] := by
  cases location with
  | none => simp [viewDidLoad] at hy
  | some loc => exact hy

theorem defaults_viewDidLoad [LinearOrder D] [Zero D] [OfNat D 10000000] (vc : MapViewController D)
    (defaults : UserDefaults D) (location : Option GeoPoint) :
    (vc.viewDidLoad defaults location).2.1 = (loadRadius defaults).2 := by
  cases location <;> rfl

/-- A callout opens a yak of the map. -/
theorem mem_of_callout {vc : MapViewController D} {view : MessageAnnotation} {y : Yak}
    (h : vc.calloutAccessoryControlTapped view = some (some y)) :
    y ∈ vc.messages.getD [] := by
  simp only [calloutAccessoryControlTapped] at h
  split at h
  · simp at h
  · rename_i messages hmessages
    simp only [Option.bind_eq_some_iff, Option.map_eq_some_iff, Option.some.injEq] at h
    obtain ⟨index, -, y', hy', rfl⟩ := h
    rw [hmessages]
    exact List.mem_of_getElem? hy'

/-! ### Annotations and messages -/

/-- Every annotation has the position of the yak it was built from, and its callout opens this
yak. -/
def Faithful (vc : MapViewController D) : Prop :=
  ∀ a ∈ vc.annotations, (∃ messages index, vc.messages = some messages ∧ a.index = some index ∧
    index < messages.length ∧ messages[index]? = some a.yak) ∧
    vc.calloutAccessoryControlTapped a = some (some a.yak)

theorem faithful_of_annotations_eq_nil {vc : MapViewController D} (h : vc.annotations = []) :
    vc.Faithful := by
  intro a ha
  simp [h] at ha

/-- **Rebuilt annotations are faithful.** -/
theorem faithful_displayYaks {vc : MapViewController D} {messages : List Yak}
    (h : vc.messages = some messages) : vc.displayYaks.Faithful := by
  intro a ha
  simp only [displayYaks, h, Option.getD_some] at ha
  obtain ⟨index, hlt, rfl⟩ := List.mem_mapIdx.mp ha
  have hget : messages[index]? = some messages[index] := List.getElem?_eq_getElem hlt
  refine ⟨⟨messages, index, h, rfl, hlt, hget⟩, ?_⟩
  simp only [calloutAccessoryControlTapped, displayYaks, h, Option.bind_some, hget, Option.map_some]

/-- When `messages` is emptied, the annotations on the map lose their yaks. -/
theorem faithful_empty_iff {vc : MapViewController D} {radius : Option D} :
    Faithful { vc with radius := radius, messages := some [] } ↔ vc.annotations = [] := by
  refine ⟨fun h => ?_, fun h => faithful_of_annotations_eq_nil h⟩
  by_contra hne
  obtain ⟨a, ha⟩ := List.exists_mem_of_ne_nil _ hne
  obtain ⟨⟨messages, index, hmessages, -, hlt, -⟩, -⟩ := h a ha
  obtain rfl : [] = messages := Option.some.inj hmessages
  exact absurd hlt (Nat.not_lt_zero _)

end MapViewController

/-! ### Runs of the map screen -/

/-- The map screen with its outstanding fetches. -/
structure MapScreen (D : Type) where
  vc : MapViewController D
  defaults : UserDefaults D
  outstanding : List (GeoPoint × D)

namespace MapScreen

variable {D : Type}

/-- What can happen to the map screen. -/
inductive Event
  | viewDidLoad (location : Option GeoPoint)
  | viewDidAppear (location : Option GeoPoint)
  | didUpdateLocations (location : GeoPoint)
  /-- An outstanding fetch succeeds with any result. -/
  | deliver (n : ℕ) (yaks : List Yak)
  | fail (n : ℕ)

/-- The screen before it is loaded, on a device with any defaults. -/
def initial (defaults : UserDefaults D) : MapScreen D := ⟨.initial, defaults, []⟩

/-- All runs of the map screen. -/
def machine (D : Type) [LinearOrder D] [Zero D] [OfNat D 10000000] :
    Machine (MapScreen D) Event where
  step s
    | .viewDidLoad location =>
      let (vc, defaults, fetch) := s.vc.viewDidLoad s.defaults location
      some ⟨vc, defaults, s.outstanding ++ fetch.toList⟩
    | .viewDidAppear location => do
      let (vc, fetch) ← s.vc.viewDidAppear location
      some { s with vc := vc, outstanding := s.outstanding ++ fetch.toList }
    | .didUpdateLocations location => do
      let fetch ← s.vc.didUpdateLocations location
      some { s with outstanding := s.outstanding ++ [fetch] }
    | .deliver n yaks => do
      let _ ← s.outstanding[n]?
      some { s with vc := s.vc.showYaks yaks, outstanding := s.outstanding.eraseIdx n }
    | .fail n => do
      let _ ← s.outstanding[n]?
      some { s with outstanding := s.outstanding.eraseIdx n }

/-- The screen is loaded or appears without a location only while no annotation is on the map. -/
def ClearMapWithoutLocation (s : MapScreen D) : Event → Prop
  | .viewDidLoad none | .viewDidAppear none => s.vc.annotations = []
  | _ => True

variable [LinearOrder D] [Zero D] [OfNat D 10000000]

/-- A step keeps the annotations faithful, unless it empties `messages` under them. -/
theorem faithful_step_iff {s t : MapScreen D} {e : Event} (h : s.vc.Faithful)
    (ht : (machine D).step s e = some t) : t.vc.Faithful ↔ s.ClearMapWithoutLocation e := by
  cases e with
  | viewDidLoad location =>
    obtain rfl := Option.some.inj ht
    cases location with
    | none => exact MapViewController.faithful_empty_iff
    | some loc => exact iff_of_true h trivial
  | viewDidAppear location =>
    simp only [machine, MapViewController.viewDidAppear, Option.bind_eq_bind,
      Option.bind_eq_some_iff, Option.map_eq_some_iff] at ht
    obtain ⟨_, ⟨radius, -, rfl⟩, ht⟩ := ht
    obtain rfl := Option.some.inj ht
    cases location with
    | none => exact MapViewController.faithful_empty_iff
    | some loc => exact iff_of_true h trivial
  | didUpdateLocations loc =>
    simp only [machine, Option.bind_eq_bind, Option.bind_eq_some_iff] at ht
    obtain ⟨_, -, ht⟩ := ht
    obtain rfl := Option.some.inj ht
    exact iff_of_true h trivial
  | deliver n yaks =>
    simp only [machine, Option.bind_eq_bind, Option.bind_eq_some_iff] at ht
    obtain ⟨_, -, ht⟩ := ht
    obtain rfl := Option.some.inj ht
    exact iff_of_true (MapViewController.faithful_displayYaks rfl) trivial
  | fail n =>
    simp only [machine, Option.bind_eq_bind, Option.bind_eq_some_iff] at ht
    obtain ⟨_, -, ht⟩ := ht
    obtain rfl := Option.some.inj ht
    exact iff_of_true h trivial

/-- **Annotations and their yaks.** The annotations are faithful in every state of a run, and no
callout traps or opens another yak, exactly when the screen is never loaded or shown without a
location while annotations are on the map. -/
theorem faithful_iff {defaults : UserDefaults D} {es : List Event} {t : MapScreen D}
    (ht : (machine D).run (initial defaults) es = some t) :
    (machine D).Visits (fun s => s.vc.Faithful) (initial defaults) es ↔
      (machine D).Along ClearMapWithoutLocation (initial defaults) es :=
  Machine.visits_iff_along (fun h ht => faithful_step_iff h ht)
    (MapViewController.faithful_of_annotations_eq_nil rfl) ht

/-- A screen that always has a location, with one fetch that succeeds, one that fails and one that
is outstanding. -/
theorem faithful_with_location :
    let yak : Yak := ⟨"user", "image_0.jpg", ⟨0, 0⟩, 0, 0, []⟩
    (machine ℕ).Visits (fun s => s.vc.Faithful) (initial .empty)
      [.viewDidLoad (some ⟨0, 0⟩), .viewDidAppear (some ⟨0, 0⟩), .deliver 1 [yak],
        .didUpdateLocations ⟨1, 1⟩, .fail 0] :=
  (faithful_iff rfl).mpr ⟨trivial, trivial, trivial, trivial, trivial, trivial⟩

/-- **A callout that traps.** A yak is shown, and the screen appears again when the location is
gone: the annotation of the yak is still there, and its callout is a subscript out of range. -/
theorem callout_traps_without_location :
    let yak : Yak := ⟨"user", "image_0.jpg", ⟨0, 0⟩, 0, 0, []⟩
    ∃ t, (machine ℕ).run (initial .empty)
        [.viewDidLoad (some ⟨0, 0⟩), .deliver 0 [yak], .viewDidAppear none] = some t ∧
      ∃ a ∈ t.vc.annotations, a.yak = yak ∧ t.vc.calloutAccessoryControlTapped a = none ∧
        ¬t.vc.Faithful := by
  refine ⟨_, rfl, _, List.mem_cons_self, rfl, rfl, fun h => ?_⟩
  exact absurd (h _ List.mem_cons_self).2
    (by simp [MapViewController.calloutAccessoryControlTapped])

end MapScreen

end SnapYak
