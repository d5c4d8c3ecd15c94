import SnapYak.Screens.Sorting

/-!
# The pull-to-refresh indicator

A pull-to-refresh gesture starts the refresh control and calls `checkForNewYaks`. The control is
stopped in two places: by the completion of a fetch that `checkForNewYaks` has issued, and by
`checkForNewYaks` itself if there is no location. A fetch that fails does not run its completion,
and the completion of a fetch that a location update has issued leaves the control alone.

So the indicator stays on when the calls that could stop it have failed
(`ListScreen.idle_iff`).

## Main definitions

* `ListScreen.Idle` : no indicator is shown without an outstanding fetch.
* `ListScreen.Pulls`, `ListScreen.Answers` : the steps that start and stop the control.
* `ListScreen.Answered` : the gestures of a run are answered in time.

## Main results

* `ListScreen.isRefreshing_step` : what a step does to the control.
* `ListScreen.isRefreshing_iff` : when the control is refreshing after a run.
* `ListScreen.idle_iff` : the runs in which the indicator never outlives the fetches.
* `ListScreen.idle_of_no_failure` : it does not if no fetch of `checkForNewYaks` fails.
-/

namespace SnapYak

namespace MessagesListViewController

variable {D : Type}

@[simp] theorem isRefreshing_checkForNewYaks (vc : MessagesListViewController D)
    (location : Option GeoPoint) :
    (vc.checkForNewYaks location).1.isRefreshing = (vc.isRefreshing && location.isSome) := by
  cases location with
  | none => exact (Bool.and_false _).symm
  | some loc => exact (Bool.and_true _).symm

@[simp] theorem isRefreshing_pullToRefresh (vc : MessagesListViewController D)
    (location : Option GeoPoint) : (vc.pullToRefresh location).1.isRefreshing = location.isSome :=
  (isRefreshing_checkForNewYaks ..).trans (Bool.true_and _)

variable [LinearOrder D]

@[simp] theorem isRefreshing_handleSort (P : Platform D) (location : Option GeoPoint)
    (vc : MessagesListViewController D) :
    (vc.handleSort P location).isRefreshing = vc.isRefreshing := by
  simp only [handleSort]
  split_ifs
  · cases location <;> rfl
  · rfl

@[simp] theorem isRefreshing_showYaks (P : Platform D) (location : Option GeoPoint)
    (vc : MessagesListViewController D) (yaks : List Yak) :
    (vc.showYaks P location yaks).isRefreshing = vc.isRefreshing :=
  isRefreshing_handleSort ..

variable [Zero D] [OfNat D 10000000]

@[simp] theorem isRefreshing_viewDidAppear (vc : MessagesListViewController D)
    (defaults : UserDefaults D) (location : Option GeoPoint) :
    (vc.viewDidAppear defaults location).1.isRefreshing =
      (vc.isRefreshing && location.isSome) :=
  isRefreshing_checkForNewYaks ..

@[simp] theorem isRefreshing_viewDidLoad (selectedSegmentIndex : ℕ) (defaults : UserDefaults D)
    (location : Option GeoPoint) :
    (viewDidLoad selectedSegmentIndex defaults location).1.isRefreshing = false :=
  (isRefreshing_checkForNewYaks ..).trans (Bool.false_and _)

end MessagesListViewController

namespace ListScreen

variable {D : Type}

/-- The refresh control is not refreshing when no fetch is outstanding. -/
def Idle (s : ListScreen D) : Prop := s.outstanding = [] → s.vc.isRefreshing = false

/-- A pull-to-refresh gesture while there is a location. -/
def Pulls (s : ListScreen D) : Event D → Prop
  | .pullToRefresh => s.location.isSome = true
  | _ => False

/-- A fetch that `checkForNewYaks` has issued succeeds, with any result, or `checkForNewYaks` is
called without a location. -/
def Answers (s : ListScreen D) : Event D → Prop
  | .deliver n _ => ∃ fetch, s.outstanding[n]? = some fetch ∧ fetch.endsRefreshing = true
  | .viewDidAppear | .pullToRefresh => s.location = none
  | _ => False

/-- An outstanding fetch will stop the control when it succeeds. -/
def Awaited (s : ListScreen D) : Prop :=
  s.vc.isRefreshing = true → ∃ fetch ∈ s.outstanding, fetch.endsRefreshing = true

/-- No fetch that `checkForNewYaks` has issued fails. -/
def FailsNoRefresh (s : ListScreen D) : Event D → Prop
  | .fail n => ∀ fetch, s.outstanding[n]? = some fetch → fetch.endsRefreshing = false
  | _ => True

variable {s t : ListScreen D}

theorem Awaited.idle (hs : s.Awaited) : s.Idle := by
  intro hnone
  by_contra hon
  obtain ⟨fetch, hmem, -⟩ := hs (by simpa using hon)
  rw [hnone] at hmem
  exact absurd hmem (by simp)

theorem isRefreshing_vote {dir : Direction} {tag : ℕ} (h : s.vote dir tag = some t) :
    t.vc.isRefreshing = s.vc.isRefreshing := by
  simp only [vote, Option.bind_eq_bind, Option.bind_eq_some_iff] at h
  obtain ⟨⟨defaults, messages, passed⟩, -, tableView, -, h⟩ := h
  obtain rfl := Option.some.inj h
  rfl

theorem isRefreshing_complete [LinearOrder D] (P : Platform D) (s : ListScreen D)
    (fetch : ListFetch D) (yaks : List Yak) : (s.complete P fetch yaks).vc.isRefreshing =
      if fetch.endsRefreshing then false else s.vc.isRefreshing := by
  rw [vc_complete]
  split_ifs
  · rfl
  · exact MessagesListViewController.isRefreshing_showYaks ..

variable [LinearOrder D] [Zero D] [OfNat D 10000000] {P : Platform D}
  {contents : ImageSource → Data} {e : Event D}

/-- **What a step does to the control.** -/
theorem isRefreshing_step (h : (machine P contents).step s e = some t) :
    t.vc.isRefreshing = true ↔ s.Pulls e ∨ s.vc.isRefreshing = true ∧ ¬s.Answers e := by
  have hquiet (hnil : s.listingEvents e = []) : t.vc.isRefreshing = s.vc.isRefreshing :=
    congrArg (fun l => l.vc.isRefreshing) (listing_eq_of_nil h hnil)
  cases e with
  | didUpdateLocations _ | fail _ | layout _ | selectRow _ | deliverImage _ | failImage _ =>
    simp [Pulls, Answers, hquiet rfl]
  | changeLocation _ | changeDefaults _ =>
    obtain rfl := Option.some.inj h
    simp [Pulls, Answers]
  | selectSegment selectedSegmentIndex =>
    obtain rfl := Option.some.inj h
    simp [Pulls, Answers, handleSort, reloadData]
  | viewDidAppear =>
    have hflag : t.vc.isRefreshing = (s.vc.isRefreshing && s.location.isSome) := by
      obtain rfl := Option.some.inj h
      exact MessagesListViewController.isRefreshing_viewDidAppear ..
    simp [Pulls, Answers, hflag, Option.isSome_iff_ne_none]
  | pullToRefresh =>
    have hflag : t.vc.isRefreshing = s.location.isSome := by
      obtain rfl := Option.some.inj h
      exact MessagesListViewController.isRefreshing_pullToRefresh ..
    rw [hflag]
    cases hlocation : s.location <;> simp [Pulls, Answers, hlocation]
  | deliver n yaks =>
    obtain ⟨fetch, hfetch, rfl⟩ := step_deliver h
    rw [isRefreshing_complete]
    cases hends : fetch.endsRefreshing <;> simp [Pulls, Answers, hfetch, hends]
  | vote dir k =>
    obtain ⟨cell, -, h⟩ := step_vote h
    simp [Pulls, Answers, isRefreshing_vote h]

/-! ### The fetches that can stop the control -/

omit [LinearOrder D] [Zero D] [OfNat D 10000000] in
/-- What an erasure does not erase. -/
theorem mem_eraseIdx_of_mem {α : Type} {l : List α} {n : ℕ} {a b : α} (hb : b ∈ l)
    (ha : l[n]? = some a) : b = a ∨ b ∈ l.eraseIdx n := by
  obtain ⟨hn, rfl⟩ := List.getElem?_eq_some_iff.mp ha
  exact List.mem_cons.mp ((List.getElem_cons_eraseIdx_perm hn).mem_iff.mpr hb)

/-- A fetch stays outstanding until it is delivered or fails. -/
theorem mem_outstanding_step {fetch : ListFetch D} (hmem : fetch ∈ s.outstanding)
    (h : (machine P contents).step s e = some t) :
    fetch ∈ t.outstanding ∨ ∃ n, s.outstanding[n]? = some fetch ∧
      (e = .fail n ∨ ∃ yaks, e = .deliver n yaks) := by
  cases e with
  | viewDidAppear | pullToRefresh | didUpdateLocations _ =>
    obtain rfl := Option.some.inj h
    exact .inl (List.mem_append_left _ hmem)
  | changeLocation _ | changeDefaults _ | selectSegment _ =>
    obtain rfl := Option.some.inj h
    exact .inl hmem
  | deliver n yaks =>
    obtain ⟨fetch', hfetch', rfl⟩ := step_deliver h
    rcases mem_eraseIdx_of_mem hmem hfetch' with rfl | hkept
    · exact .inr ⟨n, hfetch', .inr ⟨yaks, rfl⟩⟩
    · rw [(photos_complete P _ fetch' yaks).2.2]
      exact .inl hkept
  | fail n =>
    obtain ⟨fetch', hfetch', rfl⟩ := step_fail h
    rcases mem_eraseIdx_of_mem hmem hfetch' with rfl | hkept
    · exact .inr ⟨n, hfetch', .inl rfl⟩
    · exact .inl hkept
  | layout rows =>
    rw [(photos_layout h).2.2]
    exact .inl hmem
  | vote dir k =>
    obtain ⟨cell, -, h⟩ := step_vote h
    rw [(photos_vote h).2.2]
    exact .inl hmem
  | selectRow k =>
    obtain ⟨cell, -, h⟩ := step_selectRow h
    rw [(table_didSelectRow h).2.2]
    exact .inl hmem
  | deliverImage n =>
    obtain ⟨fetch', -, rfl⟩ := step_deliverImage h
    exact .inl hmem
  | failImage n =>
    obtain rfl := step_failImage h
    exact .inl hmem

/-- The fetch of the gesture, or a later one, is awaited until it succeeds. -/
theorem Awaited.step (hs : s.Awaited) (hfails : s.FailsNoRefresh e)
    (h : (machine P contents).step s e = some t) : t.Awaited := by
  intro hon
  rcases (isRefreshing_step h).mp hon with hpulls | ⟨hon, hanswers⟩
  · cases e with
    | pullToRefresh =>
      obtain ⟨loc, hlocation⟩ := Option.isSome_iff_exists.mp hpulls
      obtain rfl := Option.some.inj h
      rw [hlocation]
      exact ⟨_, List.mem_append_right _ (List.mem_singleton_self _), rfl⟩
    | _ => exact hpulls.elim
  · obtain ⟨fetch, hmem, hends⟩ := hs hon
    rcases mem_outstanding_step hmem h with hkept | ⟨n, hfetch, rfl | ⟨yaks, rfl⟩⟩
    · exact ⟨fetch, hkept, hends⟩
    · rw [hfails fetch hfetch] at hends
      exact absurd hends (by simp)
    · exact absurd ⟨fetch, hfetch, hends⟩ hanswers

/-! ### Runs -/

variable (P contents) in
/-- Every gesture of the run that is made while there is a location is answered before no fetch is
outstanding. -/
def Answered (s : ListScreen D) (es : List (Event D)) : Prop :=
  ∀ (es₁ es₂ es₃ : List (Event D)) (u v t : ListScreen D),
    es = es₁ ++ .pullToRefresh :: (es₂ ++ es₃) → (machine P contents).run s es₁ = some u →
    u.location.isSome = true → (machine P contents).step u .pullToRefresh = some v →
    (machine P contents).run v es₂ = some t → t.outstanding = [] →
    (machine P contents).Meets Answers v es₂

/-- **When the control is refreshing.** A gesture was made while there was a location, and was not
answered since. -/
theorem isRefreshing_iff {es : List (Event D)} (hs : s.vc.isRefreshing = false)
    (hrun : (machine P contents).run s es = some t) : t.vc.isRefreshing = true ↔
      ∃ (es₁ es₂ : List (Event D)) (u v : ListScreen D), es = es₁ ++ .pullToRefresh :: es₂ ∧
        (machine P contents).run s es₁ = some u ∧ u.location.isSome = true ∧
        (machine P contents).step u .pullToRefresh = some v ∧
        ¬(machine P contents).Meets Answers v es₂ := by
  rw [Machine.flag_iff isRefreshing_step hrun]
  constructor
  · rintro (⟨hflag, -⟩ | ⟨es₁, e, es₂, u, v, hes, hu, hv, hpulls, hmeets⟩)
    · rw [hs] at hflag
      exact absurd hflag (by simp)
    · cases e with
      | pullToRefresh => exact ⟨es₁, es₂, u, v, hes, hu, hpulls, hv, hmeets⟩
      | _ => exact hpulls.elim
  · rintro ⟨es₁, es₂, u, v, hes, hu, hlocation, hv, hmeets⟩
    exact .inr ⟨es₁, .pullToRefresh, es₂, u, v, hes, hu, hv, hlocation, hmeets⟩

theorem isRefreshing_start (selectedSegmentIndex : ℕ) (defaults : UserDefaults D)
    (location : Option GeoPoint) :
    (start selectedSegmentIndex defaults location).vc.isRefreshing = false :=
  MessagesListViewController.isRefreshing_viewDidLoad ..

variable (P contents) in
/-- **The refresh indicator.** In every state of a run of the list screen without an outstanding
fetch the control is not refreshing, exactly when every pull-to-refresh gesture made while there is
a location is answered before no fetch is outstanding: a fetch that `checkForNewYaks` has issued
succeeds, or `checkForNewYaks` is called without a location. -/
theorem idle_iff (selectedSegmentIndex : ℕ) (defaults : UserDefaults D)
    (location : Option GeoPoint) (es : List (Event D)) :
    (machine P contents).Visits Idle (start selectedSegmentIndex defaults location) es ↔
      Answered P contents (start selectedSegmentIndex defaults location) es := by
  have hstart := isRefreshing_start selectedSegmentIndex defaults location
  generalize start selectedSegmentIndex defaults location = s at hstart ⊢
  rw [Machine.visits_iff]
  constructor
  · intro hidle es₁ es₂ es₃ u v t hes hu hlocation hv ht hnone
    have hrun : (machine P contents).run s (es₁ ++ .pullToRefresh :: es₂) = some t :=
      Machine.run_append_eq_some.mpr ⟨u, hu, Machine.run_cons_eq_some.mpr ⟨v, hv, ht⟩⟩
    have hoff : t.vc.isRefreshing = false :=
      hidle (es₁ ++ .pullToRefresh :: es₂) es₃ t (by simp [hes]) hrun hnone
    by_contra hmeets
    have hon := (isRefreshing_iff hstart hrun).mpr ⟨es₁, es₂, u, v, rfl, hu, hlocation, hv, hmeets⟩
    rw [hoff] at hon
    exact absurd hon (by simp)
  · intro hanswered es₁ es₃ t hes hrun hnone
    by_contra hon
    obtain ⟨es₁, es₂, u, v, rfl, hu, hlocation, hv, hmeets⟩ :=
      (isRefreshing_iff hstart hrun).mp (by simpa using hon)
    obtain ⟨u', hu', hrest⟩ := Machine.run_append_eq_some.mp hrun
    obtain rfl : u' = u := Option.some.inj (hu'.symm.trans hu)
    obtain ⟨v', hv', ht⟩ := Machine.run_cons_eq_some.mp hrest
    obtain rfl : v' = v := Option.some.inj (hv'.symm.trans hv)
    exact hmeets (hanswered es₁ es₂ es₃ u' v' t (by simp [hes]) hu hlocation hv ht hnone)

/-- **Only failures leave the indicator on.** In a run in which no fetch of `checkForNewYaks` fails,
it never outlives the fetches. -/
theorem idle_of_no_failure {selectedSegmentIndex : ℕ} {defaults : UserDefaults D}
    {location : Option GeoPoint} {es : List (Event D)}
    (hfails : (machine P contents).Along FailsNoRefresh
      (start selectedSegmentIndex defaults location) es) :
    (machine P contents).Visits Idle (start selectedSegmentIndex defaults location) es := by
  have hstart : (start selectedSegmentIndex defaults location).Awaited := fun hon => by
    rw [isRefreshing_start] at hon
    exact absurd hon (by simp)
  refine Machine.visits_iff.mpr fun es₁ es₂ u hes hrun => Awaited.idle ?_
  refine Machine.run_induction (fun hs hA ht => hs.step hA ht) hstart ?_ hrun
  rw [hes] at hfails
  exact hfails.append_left

/-- **The indicator outlives the refresh.** The list is pulled and the fetch fails; no call is
outstanding, and the control is refreshing. It is still refreshing after a location update has
brought new yaks. -/
theorem refresh_outlives_failure :
    let yak : Yak := ⟨"user", "image_0.jpg", ⟨0, 0⟩, 0, 0, []⟩
    let start : ListScreen ℕ := start 0 .empty (some ⟨0, 0⟩)
    let m := machine Platform.discrete fun _ => []
    (∃ s, m.run start [.deliver 0 [], .pullToRefresh, .fail 0] = some s ∧
      s.outstanding = [] ∧ s.vc.isRefreshing = true) ∧
    ∃ s, m.run start [.deliver 0 [], .pullToRefresh, .fail 0, .didUpdateLocations ⟨0, 0⟩,
        .deliver 0 [yak]] = some s ∧
      s.outstanding = [] ∧ s.vc.isRefreshing = true ∧ s.messages = [yak] :=
  ⟨⟨_, rfl, rfl, rfl⟩, _, rfl, rfl, rfl, rfl⟩

end ListScreen

end SnapYak
