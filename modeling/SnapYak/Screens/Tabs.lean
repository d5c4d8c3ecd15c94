import SnapYak.Screens.Map

/-!
# The tabs, and the radius of their fetches

The list screen reads the radius whenever it appears, the map screen only when it is loaded, which
is when its tab is first selected after a launch. A radius is saved on the settings tab, so the list
screen has read it by the time it is seen again; the map screen has not if it was loaded before.

Results of fetches have no part in this, and the photo tab issues no fetch: both are left out.

## Main definitions

* `App`, `App.step` : the app with its tabs, and the fetches that each step issues.

## Main results

* `App.RadiusCurrent.step` : which screens are up to date.
* `App.fetch_radius` : the radius of the fetches after a save.
-/

namespace SnapYak

/-- The tabs of the app that fetch yaks or set the radius. -/
inductive Tab
  | list
  | map
  | settings
deriving DecidableEq

/-- A fetch, with the screen that issues it. -/
structure Fetch (D : Type) where
  screen : Tab
  currentLocation : GeoPoint
  radius : D

/-- A running app. -/
structure App (D : Type) where
  defaults : UserDefaults D
  tab : Tab
  list : MessagesListViewController D
  map : MapViewController D
  settingsLoaded : Bool

namespace App

variable {D : Type}

/-- What the user and the location manager do. -/
inductive Event (D : Type)
  | relaunch (location : Option GeoPoint)
  | select (tab : Tab) (location : Option GeoPoint)
  /-- A save of what the text parses to. -/
  | save (rad : Option D)
  | pullToRefresh (location : Option GeoPoint)
  | updateList (location : GeoPoint)
  | updateMap (location : GeoPoint)

/-- The fetch of a screen, as a list. -/
def fetches (screen : Tab) (fetch : Option (GeoPoint × D)) : List (Fetch D) :=
  (fetch.map fun p => ⟨screen, p.1, p.2⟩).toList

theorem mem_fetches {screen : Tab} {fetch : Option (GeoPoint × D)} {f : Fetch D} :
    f ∈ fetches screen fetch ↔ ∃ p ∈ fetch, f = ⟨screen, p.1, p.2⟩ := by
  cases fetch <;> simp [fetches]

variable [LinearOrder D] [Zero D] [OfNat D 10000000]

/-- A launch: the list screen is loaded and appears. -/
def launch (defaults : UserDefaults D) (location : Option GeoPoint) : App D × List (Fetch D) :=
  let (list, defaults, fetch) := MessagesListViewController.viewDidLoad 0 defaults location
  let (list, defaults, fetch') := list.viewDidAppear defaults location
  (⟨defaults, .list, list, .initial, false⟩, fetches .list fetch ++ fetches .list fetch')

/-- The map tab is selected: the screen is loaded the first time, and appears. -/
def selectMap (s : App D) (location : Option GeoPoint) : Option (App D × List (Fetch D)) :=
  match s.map.radius with
  | none => do
    let (map, defaults, fetch) := s.map.viewDidLoad s.defaults location
    let (map, fetch') ← map.viewDidAppear location
    some ({ s with tab := .map, map := map, defaults := defaults },
      fetches .map fetch ++ fetches .map fetch')
  | some _ => do
    let (map, fetch) ← s.map.viewDidAppear location
    some ({ s with tab := .map, map := map }, fetches .map fetch)

/-- What happens, and the fetches that are issued. -/
def step (s : App D) : Event D → Option (App D × List (Fetch D))
  | .relaunch location => some (launch s.defaults location)
  | .select .list location =>
    let (list, defaults, fetch) := s.list.viewDidAppear s.defaults location
    some ({ s with tab := .list, list := list, defaults := defaults }, fetches .list fetch)
  | .select .map location => s.selectMap location
  | .select .settings _ =>
    if s.settingsLoaded then some ({ s with tab := .settings }, [])
    else
      some ({ s with
        tab := .settings
        settingsLoaded := true
        defaults := (SettingsViewController.viewDidLoad s.defaults).2 }, [])
  | .save rad =>
    if s.tab = .settings then
      some ({ s with defaults := SettingsViewController.saveRadius s.defaults rad }, [])
    else none
  | .pullToRefresh location =>
    if s.tab = .list then
      let (list, fetch) := s.list.pullToRefresh location
      some ({ s with list := list }, fetches .list fetch)
    else none
  | .updateList location => some (s, fetches .list (some (s.list.didUpdateLocations location)))
  | .updateMap location => do
    let fetch ← s.map.didUpdateLocations location
    some (s, fetches .map (some fetch))

/-- The runs of the app. -/
def machine (D : Type) [LinearOrder D] [Zero D] [OfNat D 10000000] : Machine (App D) (Event D) where
  step s e := (s.step e).map Prod.fst

/-! ### Which screens are up to date -/

/-- The list screen has the radius `r`. -/
def ListCurrent (r : D) (s : App D) : Prop := s.list.radius = effectiveRadius r

/-- The radius `r` was saved last: it is stored, and the list screen has it when it is shown. -/
structure RadiusCurrent (r : D) (s : App D) : Prop where
  stored : s.defaults.effectiveRadius = effectiveRadius r
  list : s.tab = .list → ListCurrent r s

/-- The map screen has the radius `r`, if it is loaded. -/
def MapCurrent (r : D) (s : App D) : Prop :=
  ∀ radius, s.map.radius = some radius → radius = effectiveRadius r

/-- What a step from `s` to `t` owes to the radius `r` that was saved last. -/
structure Uses (r : D) (t : App D) (fs : List (Fetch D)) : Prop where
  current : RadiusCurrent r t
  list : ListCurrent r t → ∀ f ∈ fs, f.screen = .list → f.radius = effectiveRadius r
  map : MapCurrent r t → ∀ f ∈ fs, f.screen = .map → f.radius = effectiveRadius r

variable {r : D} {s t : App D} {fs : List (Fetch D)}

/-- The fetches of the list screen with the current radius. -/
theorem Uses.of_list (h : RadiusCurrent r t)
    (hfs : ∀ f ∈ fs, f.screen = .list ∧ f.radius = effectiveRadius r) : Uses r t fs where
  current := h
  list _ f hf _ := (hfs f hf).2
  map _ f hf hs := absurd ((hfs f hf).1.symm.trans hs) (by decide)

/-- The fetches of the map screen with its own radius. -/
theorem Uses.of_map (h : RadiusCurrent r t)
    (hfs : ∀ f ∈ fs, f.screen = .map ∧ t.map.radius = some f.radius) : Uses r t fs where
  current := h
  list _ f hf hs := absurd ((hfs f hf).1.symm.trans hs) (by decide)
  map hmap f hf _ := hmap _ (hfs f hf).2

theorem uses_launch (defaults : UserDefaults D) (location : Option GeoPoint)
    (h : defaults.effectiveRadius = effectiveRadius r) :
    Uses r (launch defaults location).1 (launch defaults location).2 := by
  obtain ⟨hdef, hfetch⟩ := MessagesListViewController.radius_viewDidLoad defaults location 0
  obtain ⟨hradius, hdef', hfetch'⟩ := MessagesListViewController.radius_viewDidAppear
    (MessagesListViewController.viewDidLoad 0 defaults location).1
    (MessagesListViewController.viewDidLoad 0 defaults location).2.1 location
  rw [hdef, h] at hradius hdef' hfetch'
  rw [h] at hfetch
  refine .of_list ⟨hdef', fun _ => hradius⟩ fun f hf => ?_
  rcases List.mem_append.mp hf with hf | hf
  · obtain ⟨p, hp, rfl⟩ := mem_fetches.mp hf
    exact ⟨rfl, hfetch p hp⟩
  · obtain ⟨p, hp, rfl⟩ := mem_fetches.mp hf
    exact ⟨rfl, hfetch' p hp⟩

/-- The map is selected: loading it reads the radius, and showing it again does not. -/
theorem uses_selectMap {location : Option GeoPoint} (h : RadiusCurrent r s)
    (ht : s.selectMap location = some (t, fs)) :
    Uses r t fs ∧ t.list = s.list ∧ (MapCurrent r s → MapCurrent r t) := by
  cases hradius : s.map.radius with
  | none =>
    obtain ⟨hmap, hdef, hfetch⟩ := s.map.radius_viewDidLoad s.defaults location
    simp only [selectMap, hradius, Option.bind_eq_bind, Option.bind_eq_some_iff] at ht
    obtain ⟨⟨map, fetch'⟩, happear, ht⟩ := ht
    simp only [Option.some.injEq, Prod.mk.injEq] at ht
    obtain ⟨rfl, rfl⟩ := ht
    obtain ⟨hmap', hfetch'⟩ := MapViewController.radius_viewDidAppear happear
    rw [hmap, h.stored] at hmap' hfetch'
    refine ⟨.of_map ⟨hdef.trans h.stored, fun ht => absurd ht (by simp)⟩ fun f hf => ?_, rfl,
      fun _ radius hr => ?_⟩
    · rcases List.mem_append.mp hf with hf | hf
      · obtain ⟨p, hp, rfl⟩ := mem_fetches.mp hf
        exact ⟨rfl, hmap'.trans (by rw [hfetch p hp, h.stored])⟩
      · obtain ⟨p, hp, rfl⟩ := mem_fetches.mp hf
        exact ⟨rfl, hmap'.trans (hfetch' p hp)⟩
    · exact (Option.some.inj (hmap'.symm.trans hr)).symm
  | some radius =>
    simp only [selectMap, hradius, Option.bind_eq_bind, Option.bind_eq_some_iff] at ht
    obtain ⟨⟨map, fetch⟩, happear, ht⟩ := ht
    simp only [Option.some.injEq, Prod.mk.injEq] at ht
    obtain ⟨rfl, rfl⟩ := ht
    obtain ⟨hmap', hfetch⟩ := MapViewController.radius_viewDidAppear happear
    refine ⟨.of_map ⟨h.stored, fun ht => absurd ht (by simp)⟩ fun f hf => ?_, rfl,
      fun hm radius hr => hm radius (hmap'.symm.trans hr)⟩
    obtain ⟨p, hp, rfl⟩ := mem_fetches.mp hf
    exact ⟨rfl, hmap'.trans (hfetch p hp)⟩

/-- A save of a number. -/
def Event.IsSave : Event D → Prop
  | .save (some _) => True
  | _ => False

/-- The list screen appears. -/
def Event.ShowsList : Event D → Prop
  | .relaunch _ | .select .list _ => True
  | _ => False

/-- **One step.** Unless a number is saved, the screens stay up to date, and what they fetch has the
radius that was saved last. -/
theorem RadiusCurrent.step (h : RadiusCurrent r s) {e : Event D} (he : ¬e.IsSave)
    (ht : s.step e = some (t, fs)) :
    Uses r t fs ∧ (ListCurrent r s ∨ e.ShowsList → ListCurrent r t) ∧
      (MapCurrent r s ∨ (∃ location, e = .relaunch location) → MapCurrent r t) := by
  cases e with
  | relaunch location =>
    obtain ⟨rfl, rfl⟩ := Prod.mk.inj (Option.some.inj ht)
    have huses := uses_launch s.defaults location h.stored
    exact ⟨huses, fun _ => huses.current.list rfl, fun _ radius hr => absurd hr (by
      simp [MapViewController.initial])⟩
  | select tab location =>
    have hno : ¬∃ location', (.select tab location : Event D) = .relaunch location' := by simp
    cases tab with
    | list =>
      obtain ⟨hradius, hdef, hfetch⟩ := s.list.radius_viewDidAppear s.defaults location
      rw [h.stored] at hradius hfetch
      obtain ⟨rfl, rfl⟩ := Prod.mk.inj (Option.some.inj ht)
      refine ⟨.of_list ⟨hdef.trans h.stored, fun _ => hradius⟩ fun f hf => ?_, fun _ => hradius,
        fun hm => hm.resolve_right hno⟩
      obtain ⟨p, hp, rfl⟩ := mem_fetches.mp hf
      exact ⟨rfl, hfetch p hp⟩
    | map =>
      obtain ⟨huses, hlist, hmap⟩ := uses_selectMap h ht
      exact ⟨huses, fun hl => (congrArg _ hlist).trans (hl.resolve_right id),
        fun hm => hmap (hm.resolve_right hno)⟩
    | settings =>
      simp only [App.step] at ht
      split_ifs at ht
      · obtain ⟨rfl, rfl⟩ := Prod.mk.inj (Option.some.inj ht)
        exact ⟨.of_list ⟨h.stored, fun ht => absurd ht (by simp)⟩ (by simp),
          fun hl => hl.resolve_right id, fun hm => hm.resolve_right hno⟩
      · obtain ⟨rfl, rfl⟩ := Prod.mk.inj (Option.some.inj ht)
        exact ⟨.of_list ⟨(effectiveRadius_loadRadius _).trans h.stored,
          fun ht => absurd ht (by simp)⟩ (by simp), fun hl => hl.resolve_right id,
          fun hm => hm.resolve_right hno⟩
  | save rad =>
    cases rad with
    | some rad => exact absurd trivial he
    | none =>
      simp only [App.step] at ht
      split_ifs at ht
      obtain ⟨rfl, rfl⟩ := Prod.mk.inj (Option.some.inj ht)
      exact ⟨.of_list ⟨h.stored, h.list⟩ (by simp), fun hl => hl.resolve_right id,
        fun hm => hm.resolve_right (by simp)⟩
  | pullToRefresh location =>
    simp only [App.step] at ht
    split_ifs at ht with htab
    obtain ⟨rfl, rfl⟩ := Prod.mk.inj (Option.some.inj ht)
    have hcurrent : (s.list.pullToRefresh location).1.radius = effectiveRadius r := by
      cases location <;> exact h.list htab
    refine ⟨.of_list ⟨h.stored, fun _ => hcurrent⟩ fun f hf => ?_, fun _ => hcurrent,
      fun hm => hm.resolve_right (by simp)⟩
    obtain ⟨p, hp, rfl⟩ := mem_fetches.mp hf
    cases location with
    | none => exact absurd hp (by simp [MessagesListViewController.pullToRefresh,
        MessagesListViewController.checkForNewYaks])
    | some loc =>
      obtain rfl := Option.some.inj hp
      exact ⟨rfl, h.list htab⟩
  | updateList location =>
    obtain ⟨rfl, rfl⟩ := Prod.mk.inj (Option.some.inj ht)
    refine ⟨⟨h, fun hl f hf _ => ?_, fun _ f hf hs => ?_⟩, fun hl => hl.resolve_right id,
      fun hm => hm.resolve_right (by simp)⟩
    · obtain ⟨p, hp, rfl⟩ := mem_fetches.mp hf
      obtain rfl := Option.some.inj hp
      exact hl
    · obtain ⟨p, hp, rfl⟩ := mem_fetches.mp hf
      exact absurd hs (by simp)
  | updateMap location =>
    simp only [App.step, Option.bind_eq_bind, Option.bind_eq_some_iff] at ht
    obtain ⟨fetch, hfetch, ht⟩ := ht
    obtain ⟨rfl, rfl⟩ := Prod.mk.inj (Option.some.inj ht)
    obtain ⟨radius, hradius, rfl⟩ := Option.map_eq_some_iff.mp hfetch
    refine ⟨.of_map h fun f hf => ?_, fun hl => hl.resolve_right id,
      fun hm => hm.resolve_right (by simp)⟩
    obtain ⟨p, hp, rfl⟩ := mem_fetches.mp hf
    obtain rfl := Option.some.inj hp
    exact ⟨rfl, hradius⟩

/-- A run without a save keeps the screens up to date; the list becomes so when it appears, and the
map by a relaunch. -/
theorem RadiusCurrent.run (h : RadiusCurrent r s) {es : List (Event D)} (hes : ∀ e ∈ es, ¬e.IsSave)
    (ht : (machine D).run s es = some t) :
    RadiusCurrent r t ∧ (ListCurrent r s ∨ (∃ e ∈ es, e.ShowsList) → ListCurrent r t) ∧
      (MapCurrent r s ∨ (∃ location, .relaunch location ∈ es) → MapCurrent r t) := by
  induction es generalizing s with
  | nil =>
    obtain rfl : s = t := by simpa using ht
    exact ⟨h, fun hl => hl.resolve_right (by simp), fun hm => hm.resolve_right (by simp)⟩
  | cons e es ih =>
    obtain ⟨u, hu, ht⟩ := Machine.run_cons_eq_some.mp ht
    obtain ⟨⟨u, fs⟩, hstep, rfl⟩ := Option.map_eq_some_iff.mp hu
    obtain ⟨huses, hlist, hmap⟩ := h.step (hes e List.mem_cons_self) hstep
    obtain ⟨hcur, hlist', hmap'⟩ :=
      ih huses.current (fun e he => hes e (List.mem_cons_of_mem _ he)) ht
    refine ⟨hcur, fun hl => hlist' ?_, fun hm => hmap' ?_⟩
    · rcases hl with hl | ⟨e', hmem, hshows⟩
      · exact Or.inl (hlist (Or.inl hl))
      · rcases List.mem_cons.mp hmem with rfl | hmem
        · exact Or.inl (hlist (Or.inr hshows))
        · exact Or.inr ⟨e', hmem, hshows⟩
    · rcases hm with hm | ⟨location, hmem⟩
      · exact Or.inl (hmap (Or.inl hm))
      · rcases List.mem_cons.mp hmem with he | hmem
        · exact Or.inl (hmap (Or.inr ⟨location, he.symm⟩))
        · exact Or.inr ⟨location, hmem⟩

/-- **The radius of the fetches.** After a save of `rad`, and before another one, every fetch of
the list screen while its tab is shown, or once it has appeared since the save, has the radius
`rad`, with `0` standing for the default; so has every fetch of the map screen when the screen has
been loaded since the save. -/
theorem fetch_radius {s₀ s₁ s₂ : App D} {rad : D} {es : List (Event D)} {e : Event D}
    (h₁ : (machine D).step s₀ (.save (some rad)) = some s₁)
    (h₂ : (machine D).run s₁ es = some s₂) (hes : ∀ e ∈ es, ¬e.IsSave) (he : ¬e.IsSave)
    (ht : s₂.step e = some (t, fs)) :
    (t.tab = .list ∨ (∃ e' ∈ es ++ [e], e'.ShowsList) →
      ∀ f ∈ fs, f.screen = .list → f.radius = effectiveRadius rad) ∧
    (s₀.map.radius = none ∨ (∃ location, .relaunch location ∈ es ++ [e]) →
      ∀ f ∈ fs, f.screen = .map → f.radius = effectiveRadius rad) := by
  obtain ⟨⟨u, fs'⟩, hsave, rfl⟩ := Option.map_eq_some_iff.mp h₁
  simp only [App.step] at hsave
  split_ifs at hsave with htab
  obtain ⟨rfl, rfl⟩ := Prod.mk.inj (Option.some.inj hsave)
  have hcur : RadiusCurrent rad { s₀ with
      defaults := SettingsViewController.saveRadius s₀.defaults (some rad) } :=
    ⟨rfl, fun hlist => absurd (htab.symm.trans hlist) (by decide)⟩
  obtain ⟨hcur₂, hlist, hmap⟩ := hcur.run hes h₂
  obtain ⟨huses, hlist', hmap'⟩ := hcur₂.step he ht
  refine ⟨fun hshown => huses.list ?_, fun hload => huses.map (hmap' ?_)⟩
  · rcases hshown with htab | ⟨e', hmem, hshows⟩
    · exact huses.current.list htab
    · rcases List.mem_append.mp hmem with hmem | hmem
      · exact hlist' (Or.inl (hlist (Or.inr ⟨e', hmem, hshows⟩)))
      · exact hlist' (Or.inr (List.mem_singleton.mp hmem ▸ hshows))
  · rcases hload with hnone | ⟨location, hmem⟩
    · exact Or.inl (hmap (Or.inl fun radius hr => absurd (hnone.symm.trans hr) (by simp)))
    · rcases List.mem_append.mp hmem with hmem | hmem
      · exact Or.inl (hmap (Or.inr ⟨location, hmem⟩))
      · exact Or.inr ⟨location, (List.mem_singleton.mp hmem).symm⟩

/-- A radius is saved, and the list and the map, which has not been loaded before, are looked at. -/
theorem fetch_radius_five :
    let s₀ : App ℕ := { (launch .empty none).1 with tab := .settings }
    ∃ s₁ s₂ t fs, (machine ℕ).step s₀ (.save (some 5)) = some s₁ ∧
      (machine ℕ).run s₁ [.select .list none, .pullToRefresh none] = some s₂ ∧
      s₂.step (.select .map (some ⟨0, 0⟩)) = some (t, fs) ∧ fs.map Fetch.radius = [5, 5] ∧
      ∀ f ∈ fs, f.screen = .map → f.radius = 5 := by
  intro s₀
  refine ⟨_, _, _, _, rfl, rfl, rfl, rfl, ?_⟩
  have h := @fetch_radius ℕ _ _ _ _ _ s₀ _ _ 5 [.select .list none, .pullToRefresh none]
    (.select .map (some ⟨0, 0⟩)) rfl rfl (by simp [Event.IsSave]) (by simp [Event.IsSave]) rfl
  exact h.2 (Or.inl rfl)

/-- **Three fetches with another radius than the one saved last.** A saved `0` is replaced by the
default on the list screen; a location that reaches the list screen while the settings are still
shown is searched with the radius from before the save of `5`; and a map screen that was loaded
before the save of `7` still has the `5` saved before. -/
theorem radius_not_saved_last :
    (∃ s t fs, (machine ℕ).run (launch .empty none).1 [.select .settings none, .save (some 0)] =
        some s ∧ s.step (.select .list (some ⟨0, 0⟩)) = some (t, fs) ∧
        fs.map Fetch.radius = [10000000]) ∧
    (∃ s t fs, (machine ℕ).run (launch .empty none).1 [.select .settings none, .save (some 5)] =
        some s ∧ s.step (.updateList ⟨0, 0⟩) = some (t, fs) ∧
        fs.map Fetch.radius = [10000000]) ∧
    ∃ s t fs, (machine ℕ).run (launch .empty none).1 [.select .settings none, .save (some 5),
        .select .map none, .select .settings none, .save (some 7)] = some s ∧
      s.step (.select .map (some ⟨0, 0⟩)) = some (t, fs) ∧ fs.map Fetch.radius = [5] :=
  ⟨⟨_, _, _, rfl, rfl, rfl⟩, ⟨_, _, _, rfl, rfl, rfl⟩, ⟨_, _, _, rfl, rfl, rfl⟩⟩

end App

end SnapYak
