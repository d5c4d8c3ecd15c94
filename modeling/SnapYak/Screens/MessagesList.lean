import SnapYak.Screens.Vote
import SnapYak.Store.Platform

/-!
# The list screen and the settings screen

The list screen fetches the yaks around the device and shows them sorted by distance or by likes.
It reads the radius of the search from the user defaults whenever it appears; the settings screen
writes it there. A stored radius of `0` stands for no radius, as `double(forKey:)` returns `0` for a
missing one, and is replaced by the default.

The outlets, the cells and the cached images are left out. A method returns the fetch that it issues
as the two arguments of `fetchYaks`.

## Main definitions

* `loadRadius`, `SettingsViewController.saveRadius` : the radius in the user defaults.
* `MessagesListViewController` : the state of the list screen, and its methods.

## Main results

* `perm_handleSort`, `sorted_handleSort` : sorting loses no message, and orders them.
-/

namespace SnapYak

variable {D : Type}

/-! ### The radius -/

section Radius

variable [LinearOrder D] [Zero D] [OfNat D 10000000]

/-- The block that `viewDidLoad` and `viewDidAppear` share on three screens: the radius read from
the defaults, a missing one and `0` being replaced by the default value and saved. -/
def loadRadius (defaults : UserDefaults D) : D × UserDefaults D :=
  let radius := defaults.radius.getD 0
  if radius = 0 then (10000000, { defaults with radius := some 10000000 })
  else (radius, defaults)

/-- The radius that a stored value stands for. -/
def effectiveRadius (radius : D) : D := if radius = 0 then 10000000 else radius

/-- The radius that the defaults stand for. -/
def UserDefaults.effectiveRadius (defaults : UserDefaults D) : D :=
  SnapYak.effectiveRadius (defaults.radius.getD 0)

theorem loadRadius_fst (defaults : UserDefaults D) :
    (loadRadius defaults).1 = defaults.effectiveRadius := by
  simp only [loadRadius, UserDefaults.effectiveRadius, effectiveRadius]
  split_ifs <;> rfl

/-- Reading the radius may replace the stored value, but not by one that stands for another. -/
theorem effectiveRadius_loadRadius (defaults : UserDefaults D) :
    (loadRadius defaults).2.effectiveRadius = defaults.effectiveRadius := by
  simp only [loadRadius, UserDefaults.effectiveRadius, effectiveRadius]
  split_ifs <;> simp_all

@[simp] theorem voted_loadRadius (defaults : UserDefaults D) (dir : Direction) :
    (loadRadius defaults).2.voted dir = defaults.voted dir := by
  simp only [loadRadius]
  split_ifs <;> cases dir <;> rfl

/-- `SettingsViewController.saveRadius(_:)`, `rad` being what the text parses to. -/
def SettingsViewController.saveRadius (defaults : UserDefaults D) (rad : Option D) :
    UserDefaults D :=
  match rad with
  | some rad => { defaults with radius := some rad }
  | none => defaults

/-- `SettingsViewController.viewDidLoad()`: the radius shown. -/
def SettingsViewController.viewDidLoad (defaults : UserDefaults D) : D × UserDefaults D :=
  loadRadius defaults

end Radius

/-! ### The list screen -/

/-- The list screen. -/
structure MessagesListViewController (D : Type) where
  radius : D
  messages : List Yak
  selectedSegmentIndex : ℕ
  isRefreshing : Bool

namespace MessagesListViewController

/-- `checkForNewYaks()`: a fetch around the current location, if there is one. -/
def checkForNewYaks (vc : MessagesListViewController D) (location : Option GeoPoint) :
    MessagesListViewController D × Option (GeoPoint × D) :=
  match location with
  | some loc => (vc, some (loc, vc.radius))
  | none => ({ vc with isRefreshing := false }, none)

/-- The pull-to-refresh gesture. -/
def pullToRefresh (vc : MessagesListViewController D) (location : Option GeoPoint) :
    MessagesListViewController D × Option (GeoPoint × D) :=
  { vc with isRefreshing := true }.checkForNewYaks location

/-- `locationManager(_:didUpdateLocations:)`, for the first location of the update. -/
def didUpdateLocations (vc : MessagesListViewController D) (location : GeoPoint) : GeoPoint × D :=
  (location, vc.radius)

@[simp] theorem messages_checkForNewYaks (vc : MessagesListViewController D)
    (location : Option GeoPoint) : (vc.checkForNewYaks location).1.messages = vc.messages := by
  cases location <;> rfl

variable [LinearOrder D]

/-- `sortMessagesByLocation(loc:)`. -/
def sortMessagesByLocation (P : Platform D) (vc : MessagesListViewController D) (loc : GeoPoint) :
    MessagesListViewController D :=
  { vc with messages := P.sorted (fun yak1 yak2 =>
      decide (P.distance loc yak1.location < P.distance loc yak2.location)) vc.messages }

/-- `sortMessagesByLikes()`. -/
def sortMessagesByLikes (P : Platform D) (vc : MessagesListViewController D) :
    MessagesListViewController D :=
  { vc with messages := P.sorted (fun yak1 yak2 => decide (yak1.likes > yak2.likes)) vc.messages }

/-- `handleSort()`. -/
def handleSort (P : Platform D) (location : Option GeoPoint) (vc : MessagesListViewController D) :
    MessagesListViewController D :=
  if vc.selectedSegmentIndex = 0 then
    match location with
    | some loc => vc.sortMessagesByLocation P loc
    | none => vc
  else vc.sortMessagesByLikes P

/-- The completion of the fetch of `didUpdateLocations`. -/
def showYaks (P : Platform D) (location : Option GeoPoint) (vc : MessagesListViewController D)
    (yaks : List Yak) : MessagesListViewController D :=
  { vc with messages := yaks }.handleSort P location

/-- The completion of the fetch of `checkForNewYaks`. -/
def refreshYaks (P : Platform D) (location : Option GeoPoint) (vc : MessagesListViewController D)
    (yaks : List Yak) : MessagesListViewController D :=
  { vc.showYaks P location yaks with isRefreshing := false }

variable {P : Platform D} {location : Option GeoPoint} {vc : MessagesListViewController D}

/-- Sorting loses no message and adds none. -/
theorem perm_handleSort : (vc.handleSort P location).messages.Perm vc.messages := by
  simp only [handleSort]
  split_ifs
  · cases location with
    | none => rfl
    | some loc =>
      exact P.sorted_perm _ (.of_map fun y : Yak => P.distance loc y.location) _
  · refine P.sorted_perm _ ?_ _
    simpa only [gt_iff_lt, neg_lt_neg_iff] using StrictWeak.of_map fun y : Yak => -y.likes

/-- The messages are in the order of the selected segment: by distance from the location, if there
is one, or by likes. -/
def Sorted (P : Platform D) (location : Option GeoPoint) (vc : MessagesListViewController D) :
    Prop :=
  (vc.selectedSegmentIndex = 0 → ∀ loc ∈ location, vc.messages.Pairwise fun yak1 yak2 =>
    P.distance loc yak1.location ≤ P.distance loc yak2.location) ∧
  (vc.selectedSegmentIndex ≠ 0 → vc.messages.Pairwise fun yak1 yak2 => yak2.likes ≤ yak1.likes)

@[simp] theorem selectedSegmentIndex_handleSort :
    (vc.handleSort P location).selectedSegmentIndex = vc.selectedSegmentIndex := by
  simp only [handleSort]
  split_ifs
  · cases location <;> rfl
  · rfl

/-- Sorting puts the messages into the order of the selected segment. -/
theorem sorted_handleSort : (vc.handleSort P location).Sorted P location := by
  rw [Sorted, selectedSegmentIndex_handleSort]
  refine ⟨fun hdistance loc hloc => ?_, fun hlikes => ?_⟩
  · obtain rfl := Option.mem_def.mp hloc
    simp only [handleSort, if_pos hdistance]
    exact P.pairwise_sorted_of_map (fun y : Yak => P.distance loc y.location) _
  · simp only [handleSort, if_neg hlikes]
    have hsorted := P.pairwise_sorted_of_map (fun y : Yak => -y.likes) vc.messages
    simp only [neg_lt_neg_iff, neg_le_neg_iff] at hsorted
    exact hsorted

theorem mem_showYaks {yaks : List Yak} {y : Yak} :
    y ∈ (vc.showYaks P location yaks).messages ↔ y ∈ yaks :=
  perm_handleSort.mem_iff

theorem mem_refreshYaks {yaks : List Yak} {y : Yak} :
    y ∈ (vc.refreshYaks P location yaks).messages ↔ y ∈ yaks :=
  mem_showYaks

/-! ### The life cycle of the list screen -/

variable [Zero D] [OfNat D 10000000]

/-- `viewDidLoad()`. -/
def viewDidLoad (selectedSegmentIndex : ℕ) (defaults : UserDefaults D)
    (location : Option GeoPoint) :
    MessagesListViewController D × UserDefaults D × Option (GeoPoint × D) :=
  let (radius, defaults) := loadRadius defaults
  let vc : MessagesListViewController D := ⟨radius, [], selectedSegmentIndex, false⟩
  let (vc, fetch) := vc.checkForNewYaks location
  (vc, defaults, fetch)

/-- `viewDidAppear(_:)`. -/
def viewDidAppear (vc : MessagesListViewController D) (defaults : UserDefaults D)
    (location : Option GeoPoint) :
    MessagesListViewController D × UserDefaults D × Option (GeoPoint × D) :=
  let (radius, defaults) := loadRadius defaults
  let (vc, fetch) := { vc with radius := radius }.checkForNewYaks location
  (vc, defaults, fetch)

variable (vc : MessagesListViewController D) (defaults : UserDefaults D)
  (location : Option GeoPoint)

@[simp] theorem messages_viewDidAppear :
    (vc.viewDidAppear defaults location).1.messages = vc.messages :=
  messages_checkForNewYaks ..

@[simp] theorem messages_viewDidLoad (selectedSegmentIndex : ℕ) :
    (viewDidLoad selectedSegmentIndex defaults location).1.messages = [] :=
  messages_checkForNewYaks ..

/-- The screen appears with the radius that is stored. -/
theorem radius_viewDidAppear :
    (vc.viewDidAppear defaults location).1.radius = defaults.effectiveRadius ∧
    (vc.viewDidAppear defaults location).2.1.effectiveRadius = defaults.effectiveRadius ∧
    ∀ p ∈ (vc.viewDidAppear defaults location).2.2, p.2 = defaults.effectiveRadius := by
  have hdef := effectiveRadius_loadRadius defaults
  rw [← loadRadius_fst defaults] at hdef ⊢
  cases location with
  | none => exact ⟨rfl, hdef, by simp [viewDidAppear, checkForNewYaks]⟩
  | some loc => exact ⟨rfl, hdef, by simp [viewDidAppear, checkForNewYaks]⟩

theorem radius_viewDidLoad (selectedSegmentIndex : ℕ) :
    (viewDidLoad selectedSegmentIndex defaults location).2.1.effectiveRadius =
      defaults.effectiveRadius ∧
    ∀ p ∈ (viewDidLoad selectedSegmentIndex defaults location).2.2,
      p.2 = defaults.effectiveRadius := by
  have hdef := effectiveRadius_loadRadius defaults
  rw [← loadRadius_fst defaults] at hdef ⊢
  cases location with
  | none => exact ⟨hdef, by simp [viewDidLoad, checkForNewYaks]⟩
  | some loc => exact ⟨hdef, by simp [viewDidLoad, checkForNewYaks]⟩

end MessagesListViewController

end SnapYak
