import Mathlib.Data.List.Range
import SnapYak.Machine.Loader
import SnapYak.Machine.Simulation
import SnapYak.Screens.ListScreen

/-!
# Message screens and their photos

The list screen and the map screen open message screens in the same way. Each has an `imageCache`;
a photo that is in it is handed to the message screen at once, and any other one is fetched, and
cached and handed over when it arrives. The two handlers are the same from the yak on, and so are
the completions of their fetches.

What they do is that of a loader (`Photos.loading`): the requests are those for the photos of the
yaks, and the answers are the message screens that are handed to `present`. A screen that presents
another one already presents no second one, so of two message screens that are handed over one after
the other only the first need be seen.

## Main definitions

* `Photos`, `Photos.machine` : the cache, the fetches and the message screens of a screen.
* `Photos.loading` : a loader is simulated.
* `Photos.Opened` : the message screens, of which each was opened for one yak.
* `ListScreen.opening` : the list screen opens message screens so.

## Main results

* `Photos.opened_run` : the message screens after a run.
* `Photos.not_mem_fetchedUrls`, `Photos.nodup_fetchedUrls_iff` : photos that are fetched again.
* `ListScreen.selections_opened` : the message screens of the list screen.
* `ListScreen.fetched_once_iff` : its photos that are fetched twice.
-/

namespace SnapYak

/-! ### The photos of a screen -/

/-- What a screen keeps of photos and message screens. -/
structure Photos where
  imageCache : String → Option Data
  images : List ImageFetch
  /-- The number of message screens that were created. -/
  created : ℕ
  /-- The message screens that were handed to `present`. -/
  presented : List MessageViewController

namespace Photos

/-- A message screen is opened for a yak, or a fetch of its photo ends. -/
inductive Event
  | openMessage (data : Yak)
  | deliverImage (n : ℕ)
  | failImage (n : ℕ)

/-- A label that is not the failure of a fetch. -/
def Event.Succeeds : Event → Prop
  | .failImage _ => False
  | _ => True

instance : (e : Event) → Decidable e.Succeeds
  | .failImage _ => isFalse id
  | .openMessage _ | .deliverImage _ => isTrue trivial

/-- `imageCache = [:]`. -/
def initial : Photos := ⟨fun _ => none, [], 0, []⟩

/-- The fetch for the message screen of a yak. -/
def fetch (s : Photos) (data : Yak) : ImageFetch :=
  ⟨fetchImage data.imageUrl, data, ⟨s.created, some data, none⟩⟩

/-- The handlers of the two screens, for the yak that is selected. -/
def openMessage (s : Photos) (data : Yak) : Photos :=
  match s.imageCache data.imageUrl with
  | some image => { s with
      created := s.created + 1
      presented := s.presented ++ [{ (s.fetch data).newVC with cachedImage := some image }] }
  | none => { s with created := s.created + 1, images := s.images ++ [s.fetch data] }

/-- The completion of `fetchImage`. -/
def imageFetched (s : Photos) (fetch : ImageFetch) (imageData : Data) : Photos :=
  { s with
    imageCache := Function.update s.imageCache fetch.data.imageUrl (some imageData)
    presented := s.presented ++ [{ fetch.newVC with cachedImage := some imageData }] }

/-- All runs, `contents` being the bytes of the photos. -/
def machine (contents : ImageSource → Data) : Machine Photos Event where
  step s
    | .openMessage data => some (s.openMessage data)
    | .deliverImage n => do
      let fetch ← s.images[n]?
      some ({ s with images := s.images.eraseIdx n }.imageFetched fetch (contents fetch.source))
    | .failImage n => do
      let _ ← s.images[n]?
      some { s with images := s.images.eraseIdx n }

/-- The yak for which a message screen is opened. -/
def Event.opened : Event → List Yak
  | .openMessage data => [data]
  | _ => []

/-- The name of the photo that is fetched. -/
def fetchedUrls (s : Photos) : Event → List String
  | .openMessage data => if (s.imageCache data.imageUrl).isNone then [data.imageUrl] else []
  | _ => []

/-- The fetch that fails. -/
def failed (s : Photos) : Event → List ImageFetch
  | .failImage n => s.images[n]?.toList
  | _ => []

/-- No message screen is opened for a photo that is being fetched, unless it is cached by now. -/
def Patient (s : Photos) : Event → Prop
  | .openMessage data => s.imageCache data.imageUrl = none →
      data.imageUrl ∉ s.images.map fun fetch => fetch.data.imageUrl
  | _ => True

/-! ### The loader -/

/-- Photos are known by the names of the yaks. -/
def service (contents : ImageSource → Data) :
    Loader.Service String Data ImageFetch MessageViewController where
  key fetch := fetch.data.imageUrl
  value url := contents (fetchImage url)
  answer fetch image := { fetch.newVC with cachedImage := some image }

/-- The label in the loader. -/
def load (s : Photos) : Event → Loader.Event ImageFetch
  | .openMessage data => .request (s.fetch data)
  | .deliverImage n => .arrive n
  | .failImage n => .fail n

variable {contents : ImageSource → Data} {s t : Photos} {e : Event} {es : List Event}

/-- **The photos of a screen are those of a loader.** -/
def loading (contents : ImageSource → Data) :
    Machine.Simulation (machine contents) (Loader.machine (service contents)) where
  inv s := ∀ fetch ∈ s.images, fetch.source = fetchImage fetch.data.imageUrl
  map s := ⟨s.imageCache, s.images, s.presented⟩
  label s e := some (s.load e)
  inv_step {s e t} hs ht := by
    cases e with
    | openMessage data =>
      obtain rfl := Option.some.inj ht
      simp only [openMessage]
      split
      · exact hs
      · intro fetch hfetch
        rcases List.mem_append.mp hfetch with hfetch | hfetch
        · exact hs fetch hfetch
        · obtain rfl := List.mem_singleton.mp hfetch
          rfl
    | deliverImage n | failImage n =>
      obtain ⟨_, -, ht⟩ := Option.bind_eq_some_iff.mp ht
      obtain rfl := Option.some.inj ht
      exact fun fetch hfetch => hs fetch (List.mem_of_mem_eraseIdx hfetch)
  run_step {s e t} hs ht := by
    refine Machine.run_singleton_eq_some.mpr ?_
    cases e with
    | openMessage data =>
      obtain rfl := Option.some.inj ht
      simp only [openMessage, load, Loader.machine, Loader.request, service, fetch]
      cases s.imageCache data.imageUrl <;> rfl
    | deliverImage n =>
      obtain ⟨fetch, hfetch, ht⟩ := Option.bind_eq_some_iff.mp ht
      obtain rfl := Option.some.inj ht
      refine Option.map_eq_some_iff.mpr ⟨fetch, hfetch, ?_⟩
      rw [hs fetch (List.mem_of_getElem? hfetch)]
      rfl
    | failImage n =>
      obtain ⟨fetch, hfetch, ht⟩ := Option.bind_eq_some_iff.mp ht
      obtain rfl := Option.some.inj ht
      exact Option.map_eq_some_iff.mpr ⟨fetch, hfetch, rfl⟩

/-! ### Message screens -/

/-- The fetch for the `i`th message screen, which is opened for `yak`. -/
def numbered (i : ℕ) (yak : Yak) : ImageFetch :=
  ⟨fetchImage yak.imageUrl, yak, ⟨i, some yak, none⟩⟩

/-- The message screens that were opened for the given yaks, some of whose photos could not be
fetched. Each is presented once with its own yak and photo, or waits for the photo, or its fetch has
failed. -/
structure Opened (contents : ImageSource → Data) (yaks : List Yak) (failures : List ImageFetch)
    (s : Photos) : Prop where
  created : s.created = yaks.length
  presented : ∀ newVC ∈ s.presented, ListScreen.Presents contents yaks newVC
  numbers : (s.presented.map MessageViewController.number ++
    (s.images ++ failures).map fun fetch => fetch.newVC.number).Perm (List.range yaks.length)

/-- The requests to the loader are numbered. -/
theorem requests_eq (ht : (machine contents).run initial es = some t) :
    t.created = ((machine contents).log (fun _ e => e.opened) initial es).length ∧
    (machine contents).log (fun s e => (s.load e).requested) initial es =
      ((machine contents).log (fun _ e => e.opened) initial es).mapIdx numbered := by
  refine Machine.history_induction₂ (f := fun yaks _ e => yaks ++ e.opened)
    (g := fun ws s e => ws ++ (load s e).requested) (h := []) (k := [])
    (I := fun s yaks ws => created s = yaks.length ∧ ws = yaks.mapIdx numbered)
    (fun {s yaks ws e u} hs hu => ?_) ⟨rfl, rfl⟩ ht
  obtain ⟨hcreated, rfl⟩ := hs
  cases e with
  | openMessage data =>
    obtain rfl := Option.some.inj hu
    refine ⟨?_, ?_⟩
    · rw [Event.opened, List.length_append, List.length_singleton, ← hcreated, openMessage]
      split <;> rfl
    · rw [Event.opened, List.mapIdx_append, ← hcreated]
      simp [load, Loader.Event.requested, numbered, fetch]
  | deliverImage n | failImage n =>
    obtain ⟨_, -, hu⟩ := Option.bind_eq_some_iff.mp hu
    obtain rfl := Option.some.inj hu
    simpa [load, Loader.Event.requested, Event.opened, imageFetched] using hcreated

theorem map_number_numbered (yaks : List Yak) :
    ((yaks.mapIdx numbered).map fun fetch => fetch.newVC.number) = List.range yaks.length :=
  List.ext_getElem (by simp) fun i _ _ => by simp [numbered]

/-- The answers of the loader are the message screens. -/
theorem opened_of_serves {yaks : List Yak} {failures : List ImageFetch}
    (hcreated : s.created = yaks.length)
    (h : ((loading contents).map s).Serves (service contents) (yaks.mapIdx numbered) failures) :
    s.Opened contents yaks failures := by
  obtain ⟨ws, hanswers, hall⟩ := h.answered
  replace hanswers : s.presented = ws.map (service contents).respond := hanswers
  have hperm : (ws ++ (s.images ++ failures)).Perm (yaks.mapIdx numbered) := by
    rw [← Multiset.coe_eq_coe, ← hall, ← List.append_assoc]
    rfl
  refine ⟨hcreated, fun newVC hmem => ?_, ?_⟩
  · rw [hanswers] at hmem
    obtain ⟨w, hw, rfl⟩ := List.mem_map.mp hmem
    obtain ⟨i, hi, rfl⟩ := List.mem_mapIdx.mp (hperm.mem_iff.mp (List.mem_append_left _ hw))
    exact ⟨_, List.getElem?_eq_getElem hi, rfl, rfl⟩
  · have hnumbers := hperm.map fun fetch => fetch.newVC.number
    rw [List.map_append, map_number_numbered] at hnumbers
    rw [hanswers, List.map_map]
    exact hnumbers

/-- The empty cache. -/
theorem inv_initial (contents : ImageSource → Data) : (loading contents).inv initial :=
  fun _ h => nomatch h

/-- **The message screens after a run.** -/
theorem opened_run (ht : (machine contents).run initial es = some t) :
    t.Opened contents ((machine contents).log (fun _ e => e.opened) initial es)
      ((machine contents).log failed initial es) := by
  obtain ⟨hcreated, hrequests⟩ := requests_eq ht
  have hserves := Loader.exists_answered ((loading contents).run_image (inv_initial _) ht)
  have hrequested := (loading contents).log_image (v := fun _ e => e.requested)
    (w := fun s e => (s.load e).requested) (fun s e => by simp [loading]) (inv_initial _) ht
  have hfailed := (loading contents).log_image (v := Loader.failed) (w := failed)
    (fun s e => by cases e <;> simp [loading, load, failed, Loader.failed]) (inv_initial _) ht
  rw [show Loader.empty = (loading contents).map initial from rfl, hrequested, hfailed,
    hrequests] at hserves
  exact opened_of_serves hcreated hserves

/-! ### Fetches -/

/-- The fetches of a run are those of the loader. -/
theorem log_fetchedUrls (hs : (loading contents).inv s)
    (ht : (machine contents).run s es = some t) :
    (Loader.machine (service contents)).log (Loader.fetched (service contents))
      ((loading contents).map s) ((loading contents).image s es) =
        (machine contents).log fetchedUrls s es :=
  (loading contents).log_image (fun s e => by
    cases e <;> simp [loading, load, fetchedUrls, Loader.fetched, service, fetch]) hs ht

/-- **A photo that is cached is never fetched again.** -/
theorem not_mem_fetchedUrls (hs : (loading contents).inv s) {url : String}
    (hurl : (s.imageCache url).isSome) (ht : (machine contents).run s es = some t) :
    url ∉ (machine contents).log fetchedUrls s es :=
  log_fetchedUrls hs ht ▸ Loader.not_mem_fetched hurl ((loading contents).run_image hs ht)

/-- **Photos that are fetched twice.** Unless fetches fail, no photo is fetched twice exactly when
no message screen is opened for a photo that is being fetched. -/
theorem nodup_fetchedUrls_iff
    (hsucceeds : (machine contents).Along (fun _ e => e.Succeeds) initial es)
    (ht : (machine contents).run initial es = some t) :
    ((machine contents).log fetchedUrls initial es).Nodup ↔
      (machine contents).Along Patient initial es := by
  have hall := ((loading contents).along_image (A := fun _ e => e.Succeeds)
    (fun s e => by cases e <;> simp [loading, load, Event.Succeeds, Loader.Event.Succeeds])
    (inv_initial _) ht).mpr hsucceeds
  have hpatient := (loading contents).along_image (A := Loader.Patient (service contents))
    (B := Patient) (fun s e => by
      cases e <;> simp [loading, load, Patient, Loader.Patient, service, fetch])
    (inv_initial _) ht
  have h := Loader.nodup_fetched_iff hall ((loading contents).run_image (inv_initial _) ht)
  rwa [show Loader.empty = (loading contents).map initial from rfl,
    log_fetchedUrls (inv_initial _) ht, hpatient] at h

end Photos

/-! ### The list screen -/

namespace ListScreen

variable {D : Type} [LinearOrder D] [Zero D] [OfNat D 10000000]

/-- The photos of the list screen. -/
def toPhotos (s : ListScreen D) : Photos := ⟨s.imageCache, s.images, s.created, s.presented⟩

omit [LinearOrder D] [Zero D] [OfNat D 10000000] in
theorem toPhotos_congr {s t : ListScreen D} (h : t.photos = s.photos) :
    t.toPhotos = s.toPhotos := by
  simp only [photos, Prod.mk.injEq] at h
  obtain ⟨hcache, himages, hcreated, hpresented⟩ := h
  rw [toPhotos, hcache, himages, hcreated, hpresented]
  rfl

/-- What the list screen does with its photos. -/
def photoEvent (s : ListScreen D) : Event D → Option Photos.Event
  | .selectRow k => (s.touched k).map fun cell => .openMessage cell.yak
  | .deliverImage n => some (.deliverImage n)
  | .failImage n => some (.failImage n)
  | _ => none

/-- **The list screen opens message screens.** -/
def opening (P : Platform D) (contents : ImageSource → Data) :
    Machine.Simulation (machine P contents) (Photos.machine contents) where
  inv := Shown
  map := toPhotos
  label := photoEvent
  inv_step := Shown.step
  run_step {s e t} hs ht := by
    cases e with
    | selectRow k =>
      obtain ⟨cell, hcell, ht⟩ := step_selectRow ht
      simp only [didSelectRow, (hs.touched hcell).2.2.2, Option.bind_eq_bind,
        Option.bind_some] at ht
      rw [photoEvent, hcell]
      refine Machine.run_singleton_eq_some.mpr (congrArg some ?_)
      simp only [Photos.openMessage, toPhotos]
      cases hcache : s.imageCache cell.yak.imageUrl with
      | some image | none =>
        rw [hcache] at ht
        obtain rfl := Option.some.inj ht
        rfl
    | deliverImage n =>
      obtain ⟨fetch, hfetch, rfl⟩ := step_deliverImage ht
      exact Machine.run_singleton_eq_some.mpr (Option.bind_eq_some_iff.mpr ⟨fetch, hfetch, rfl⟩)
    | failImage n =>
      obtain ⟨fetch, hfetch, ht⟩ := Option.bind_eq_some_iff.mp ht
      obtain rfl := Option.some.inj ht
      exact Machine.run_singleton_eq_some.mpr (Option.bind_eq_some_iff.mpr ⟨fetch, hfetch, rfl⟩)
    | layout rows => exact congrArg some (toPhotos_congr (photos_layout ht).2.1).symm
    | changeLocation | changeDefaults | viewDidAppear | pullToRefresh | didUpdateLocations | deliver
    | fail | selectSegment | vote =>
      cases stepCases_of_step ht with
      | quiet _ _ hphotos _ | reload _ hphotos _ =>
        exact congrArg some (toPhotos_congr hphotos).symm

/-- The name of the photo that is fetched for a selected row. -/
def fetchedUrls (s : ListScreen D) : Event D → List String
  | .selectRow k =>
    match s.touched k with
    | some cell =>
      if (s.imageCache cell.yak.imageUrl).isNone then [cell.yak.imageUrl] else []
    | none => []
  | _ => []

/-- The fetch of a photo that fails. -/
def failedImages (s : ListScreen D) : Event D → List ImageFetch
  | .failImage n => s.images[n]?.toList
  | _ => []

/-- No row is selected whose photo is being fetched, unless it is cached by now. -/
def Patient (s : ListScreen D) : Event D → Prop
  | .selectRow k => ∀ cell ∈ s.touched k, s.imageCache cell.yak.imageUrl = none →
      cell.yak.imageUrl ∉ s.images.map fun fetch => fetch.data.imageUrl
  | _ => True

/-- No fetch of a photo fails. -/
def ImageSucceeds : Event D → Prop
  | .failImage _ => False
  | _ => True

variable {P : Platform D} {contents : ImageSource → Data} {s t : ListScreen D}
  {selectedSegmentIndex : ℕ} {defaults : UserDefaults D} {location : Option GeoPoint}
  {es : List (Event D)}

section Labels

omit [LinearOrder D] [Zero D] [OfNat D 10000000]

theorem flatMap_opened (s : ListScreen D) (e : Event D) :
    (s.photoEvent e).toList.flatMap Photos.Event.opened = s.selection e := by
  cases e with
  | selectRow k => cases h : s.touched k <;> simp [photoEvent, selection, h, Photos.Event.opened]
  | _ => rfl

theorem flatMap_failed (s : ListScreen D) (e : Event D) :
    (s.photoEvent e).toList.flatMap s.toPhotos.failed = s.failedImages e := by
  cases e with
  | selectRow k => cases h : s.touched k <;> simp [photoEvent, failedImages, h, Photos.failed]
  | failImage n => exact List.append_nil _
  | _ => rfl

theorem flatMap_fetchedUrls (s : ListScreen D) (e : Event D) :
    (s.photoEvent e).toList.flatMap s.toPhotos.fetchedUrls = s.fetchedUrls e := by
  cases e with
  | selectRow k =>
    cases h : s.touched k <;>
      simp [photoEvent, fetchedUrls, h, Photos.fetchedUrls, toPhotos]
  | _ => rfl

theorem photoEvent_patient (s : ListScreen D) (e : Event D) :
    (∀ e' ∈ s.photoEvent e, s.toPhotos.Patient e') ↔ s.Patient e := by
  cases e with
  | selectRow k =>
    cases h : s.touched k <;> simp [photoEvent, Patient, h, Photos.Patient, toPhotos]
  | _ => simp [photoEvent, Patient, Photos.Patient]

theorem photoEvent_succeeds (s : ListScreen D) (e : Event D) :
    (∀ e' ∈ s.photoEvent e, e'.Succeeds) ↔ ImageSucceeds e := by
  cases e with
  | selectRow k => simp [photoEvent, ImageSucceeds, Photos.Event.Succeeds]
  | _ => simp [photoEvent, ImageSucceeds, Photos.Event.Succeeds]

end Labels

/-- The message screens of the list screen after a run. -/
theorem opened_run
    (ht : (machine P contents).run (start selectedSegmentIndex defaults location) es = some t) :
    t.toPhotos.Opened contents
      ((machine P contents).log selection (start selectedSegmentIndex defaults location) es)
      ((machine P contents).log failedImages (start selectedSegmentIndex defaults location)
        es) := by
  have hs := shown_start selectedSegmentIndex defaults location
  have hopened := Photos.opened_run ((opening P contents).run_image hs ht)
  have hselection := (opening P contents).log_image (v := fun _ e => e.opened)
    flatMap_opened hs ht
  have hfailed := (opening P contents).log_image flatMap_failed hs ht
  exact hselection ▸ hfailed ▸ hopened

/-- **The message screens of the list screen.** In every run, whatever fetches, photos and touches
arrive in whatever order: each selection of a row creates one message screen, which is handed to
`present` once, or waits for its photo, or its photo could not be fetched; and a photo that is
cached is not fetched again for the rest of the run. -/
theorem selections_opened
    (ht : (machine P contents).run (start selectedSegmentIndex defaults location) es = some t) :
    let M := machine P contents
    let loaded := start selectedSegmentIndex defaults location
    t.created = (M.log selection loaded es).length ∧
    (t.presented.map MessageViewController.number ++
      (t.images ++ M.log failedImages loaded es).map fun fetch => fetch.newVC.number).Perm
        (List.range t.created) ∧
    ∀ url es' u, (t.imageCache url).isSome → M.run t es' = some u →
      url ∉ M.log fetchedUrls t es' := by
  intro M loaded
  have hs := shown_start selectedSegmentIndex defaults location
  have hopened := opened_run ht
  have hcreated : t.created = (M.log selection loaded es).length := hopened.created
  refine ⟨hcreated, hcreated ▸ hopened.numbers, fun url es' u hurl hu => ?_⟩
  have hshown : t.Shown := (opening P contents).inv_run hs ht
  have hsources := (Photos.loading contents).inv_run (Photos.inv_initial contents)
    ((opening P contents).run_image hs ht)
  have h := Photos.not_mem_fetchedUrls hsources hurl ((opening P contents).run_image hshown hu)
  rwa [(opening P contents).log_image flatMap_fetchedUrls hshown hu] at h

/-- A row is selected while its photo is fetched, whose fetch then fails, and again afterwards. -/
theorem selections_opened_after_failure :
    let yak : Yak := ⟨"user", "image_0.jpg", ⟨0, 0⟩, 0, 0, []⟩
    let es : List (Event ℕ) := [.deliver 0 [yak], .layout [0], .selectRow 0, .selectRow 0,
      .failImage 1, .deliverImage 0, .selectRow 0]
    ∃ t, (machine Platform.discrete fun _ => []).run (start 0 .empty (some ⟨0, 0⟩)) es = some t ∧
      t.created = 3 ∧ t.presented.length = 2 ∧ ∀ es' u,
        (machine Platform.discrete fun _ => []).run t es' = some u →
          "image_0.jpg" ∉ (machine Platform.discrete fun _ => []).log fetchedUrls t es' := by
  intro yak es
  have hrun : (machine Platform.discrete fun _ => []).run (start 0 .empty (some ⟨0, 0⟩)) es =
    some _ := rfl
  exact ⟨_, hrun, rfl, rfl, fun es' u hu => (selections_opened hrun).2.2 _ es' u rfl hu⟩

/-- **Photos of the list screen that are fetched twice.** In a run in which no fetch of a photo
fails, no photo is fetched twice exactly when no row is selected whose photo is being fetched. -/
theorem fetched_once_iff
    (hsucceeds : (machine P contents).Along (fun _ e => ImageSucceeds e)
      (start selectedSegmentIndex defaults location) es)
    (ht : (machine P contents).run (start selectedSegmentIndex defaults location) es = some t) :
    ((machine P contents).log fetchedUrls
      (start selectedSegmentIndex defaults location) es).Nodup ↔
        (machine P contents).Along Patient (start selectedSegmentIndex defaults location) es := by
  have hs := shown_start selectedSegmentIndex defaults location
  have hall := ((opening P contents).along_image (A := fun _ e => e.Succeeds) photoEvent_succeeds
    hs ht).mpr hsucceeds
  have h := Photos.nodup_fetchedUrls_iff hall ((opening P contents).run_image hs ht)
  have hfetched := (opening P contents).log_image flatMap_fetchedUrls hs ht
  have hpatient := (opening P contents).along_image photoEvent_patient hs ht
  exact (hfetched ▸ h).trans hpatient

/-- Two rows are selected, and the first one again while its photo is being fetched: the photo is
fetched twice, and three message screens are handed over. -/
theorem fetched_once_iff_selected_again :
    let yak : Yak := ⟨"user", "image_0.jpg", ⟨0, 0⟩, 0, 0, []⟩
    let yak' : Yak := ⟨"user", "image_1.jpg", ⟨1, 1⟩, 0, 5, []⟩
    let es : List (Event ℕ) := [.deliver 0 [yak, yak'], .layout [0, 1], .selectRow 0, .selectRow 1,
      .selectRow 0, .deliverImage 2, .deliverImage 0, .deliverImage 0]
    let M := machine Platform.discrete fun _ => []
    ∃ t, M.run (start 0 .empty (some ⟨0, 0⟩)) es = some t ∧ t.presented.length = 3 ∧
      ¬M.Along Patient (start 0 .empty (some ⟨0, 0⟩)) es := by
  intro yak yak' es M
  have hrun : M.run (start 0 .empty (some ⟨0, 0⟩)) es = some _ := rfl
  refine ⟨_, hrun, rfl, fun h => ?_⟩
  have hsucceeds : M.Along (fun _ e => ImageSucceeds e) (start 0 .empty (some ⟨0, 0⟩)) es :=
    ⟨trivial, trivial, trivial, trivial, trivial, trivial, trivial, trivial, trivial⟩
  have hurls : M.log fetchedUrls (start 0 .empty (some ⟨0, 0⟩)) es =
    ["image_0.jpg", "image_1.jpg", "image_0.jpg"] := rfl
  have hnodup := (fetched_once_iff hsucceeds hrun).mpr h
  rw [hurls] at hnodup
  simp at hnodup

end ListScreen

end SnapYak
