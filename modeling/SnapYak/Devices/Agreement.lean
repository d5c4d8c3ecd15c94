import SnapYak.Devices.Progress
import SnapYak.Machine.History

/-!
# Devices that only read agree

Once the services are at rest and no user writes, the collection stays what it is, every snapshot is
a snapshot of it, and every fetch returns the stored yaks within its radius. The lists and maps of
all devices then depend only on the place and the radius of the fetch that completed there last.

Users who only read still do a lot: they refresh and sort lists, move, open and close messages and
comments, change the radius, load and leave screens. The calls they issue may fail, and the fetches
that are outstanding at once may be answered in any order.

## Main definitions

* `Action.IsReadOnly` : neither a vote, nor a reply, nor an upload.
* `World.shownFetch` : the place and the radius of the fetch that a screen shows.
* `World.Reading` : the invariant.

## Main results

* `Device.fetched_act` : what an action of a reading user leaves on the screens.
* `World.agree` : what the lists and maps of all devices show.
-/

namespace SnapYak

/-- The screens that fetch yaks. -/
inductive FetchingScreen
  | list
  | map
deriving DecidableEq

/-- The screen that a fetch belongs to. -/
def Completion.screen : Completion → FetchingScreen
  | .refreshList | .updateList => .list
  | .map => .map

/-- Neither a vote, nor a reply, nor an upload. -/
def Action.IsReadOnly {D : Type} : Action D → Prop
  | .voteRow .. | .voteMessage .. | .reply .. | .upload .. => False
  | _ => True

instance {D : Type} : (a : Action D) → Decidable a.IsReadOnly
  | .voteRow .. | .voteMessage .. | .reply .. | .upload .. => isFalse id
  | .changeLocation _ | .loadList _ | .showList | .pullToRefresh | .updateList _
  | .selectSegment _ | .selectRow _ | .loadMap | .showMap | .updateMap _ | .tapCallout _
  | .present _ | .closeMessage _ | .openComments _ | .closeComments _ | .loadSettings
  | .saveRadius _ => isTrue trivial

namespace Device

variable {D : Type}

/-- The yaks that a screen shows. -/
def fetched (d : Device D) : FetchingScreen → List Yak
  | .list => d.list.messages
  | .map => d.map.messages.getD []

/-- An action that empties a screen: it is loaded, or a map is shown without a location. -/
def Clears (d : Device D) : Action D → FetchingScreen → Prop
  | .loadList _, .list => True
  | .loadMap, .map | .showMap, .map => d.location = none
  | _, _ => False

instance (d : Device D) (a : Action D) (screen : FetchingScreen) : Decidable (d.Clears a screen) :=
  match a, screen with
  | .loadList _, .list => isTrue trivial
  | .loadMap, .map | .showMap, .map => inferInstanceAs (Decidable (d.location = none))
  | .loadList _, .map | .loadMap, .list | .showMap, .list => isFalse id
  | .changeLocation _, _ | .showList, _ | .pullToRefresh, _ | .updateList _, _
  | .selectSegment _, _ | .voteRow .., _ | .selectRow _, _ | .updateMap _, _ | .tapCallout _, _
  | .present _, _ | .voteMessage .., _ | .closeMessage _, _ | .openComments _, _ | .reply .., _
  | .closeComments _, _ | .upload .., _ | .loadSettings, _ | .saveRadius _, _ => isFalse id

/-- A call that fetches yaks. -/
def IsFetch {κ τ : Type} (r : Request κ τ D) : Prop :=
  ∃ loc radius k, r = .getDocuments (.fetchYaks loc radius k)

theorem isFetch_fetchCalls {completion : Completion} {fetch : Option (GeoPoint × D)} :
    ∀ r ∈ fetchCalls completion fetch, IsFetch r := by
  intro r hr
  obtain ⟨p, -, rfl⟩ := List.mem_map.mp hr
  exact ⟨_, _, _, rfl⟩

variable [LinearOrder D]

/-- A completion shows its result on its own screen, in some order, and nowhere else. -/
theorem fetched_complete (P : Platform D) (d : Device D) (k : Completion) (yaks : List Yak)
    (screen : FetchingScreen) : ((d.complete P k yaks).fetched screen).Perm
      (if k.screen = screen then yaks else d.fetched screen) := by
  cases k <;> cases screen
  · exact MessagesListViewController.perm_handleSort
  · rfl
  · exact MessagesListViewController.perm_handleSort
  · rfl
  · rfl
  · rfl

variable [Zero D] [OfNat D 10000000] {P : Platform D} {d d' : Device D} {calls : Calls D}

/-- A reading user issues fetches only, and what a screen shows is at most sorted again, unless the
screen is emptied. -/
theorem fetched_act {a : Action D} (ha : a.IsReadOnly) (h : d.act P a = some (d', calls)) :
    (∀ r ∈ calls, IsFetch r) ∧
      ∀ screen, ¬d.Clears a screen → (d'.fetched screen).Perm (d.fetched screen) := by
  cases a with
  | voteRow dir tag | voteMessage dir n | reply n comment | upload guid jpegData fileExists fails =>
    exact ha.elim
  | loadList selectedSegmentIndex =>
    obtain ⟨rfl, rfl⟩ := Prod.mk.inj (Option.some.inj h)
    refine ⟨isFetch_fetchCalls, fun screen hclears => ?_⟩
    cases screen with
    | list => exact absurd trivial hclears
    | map => exact .refl _
  | showList =>
    obtain ⟨rfl, rfl⟩ := Prod.mk.inj (Option.some.inj h)
    refine ⟨isFetch_fetchCalls, fun screen _ => ?_⟩
    cases screen with
    | list => exact .of_eq (MessagesListViewController.messages_viewDidAppear ..)
    | map => exact .refl _
  | pullToRefresh =>
    obtain ⟨rfl, rfl⟩ := Prod.mk.inj (Option.some.inj h)
    refine ⟨isFetch_fetchCalls, fun screen _ => ?_⟩
    cases screen with
    | list => exact .of_eq (MessagesListViewController.messages_checkForNewYaks ..)
    | map => exact .refl _
  | selectSegment selectedSegmentIndex =>
    obtain ⟨rfl, rfl⟩ := Prod.mk.inj (Option.some.inj h)
    refine ⟨by simp, fun screen _ => ?_⟩
    cases screen with
    | list => exact MessagesListViewController.perm_handleSort
    | map => exact .refl _
  | loadMap =>
    obtain ⟨rfl, rfl⟩ := Prod.mk.inj (Option.some.inj h)
    refine ⟨isFetch_fetchCalls, fun screen hclears => ?_⟩
    cases screen with
    | list => exact .refl _
    | map =>
      obtain ⟨loc, hloc⟩ := Option.ne_none_iff_exists'.mp hclears
      simp only [fetched, MapViewController.viewDidLoad, hloc]
      exact .refl _
  | showMap =>
    simp only [act, Option.bind_eq_bind, Option.bind_eq_some_iff] at h
    obtain ⟨r, hr, h⟩ := h
    obtain ⟨rfl, rfl⟩ := Prod.mk.inj (Option.some.inj h)
    refine ⟨isFetch_fetchCalls, fun screen hclears => ?_⟩
    cases screen with
    | list => exact .refl _
    | map =>
      obtain ⟨loc, hloc⟩ := Option.ne_none_iff_exists'.mp hclears
      simp only [MapViewController.viewDidAppear, hloc, Option.map_eq_some_iff] at hr
      obtain ⟨radius, -, rfl⟩ := hr
      exact .refl _
  | updateMap location =>
    simp only [act, Option.bind_eq_bind, Option.bind_eq_some_iff] at h
    obtain ⟨fetch, -, h⟩ := h
    obtain ⟨rfl, rfl⟩ := Prod.mk.inj (Option.some.inj h)
    exact ⟨isFetch_fetchCalls, fun _ _ => .refl _⟩
  | updateList location =>
    obtain ⟨rfl, rfl⟩ := Prod.mk.inj (Option.some.inj h)
    exact ⟨isFetch_fetchCalls, fun _ _ => .refl _⟩
  | changeLocation location | loadSettings | saveRadius rad =>
    obtain ⟨rfl, rfl⟩ := Prod.mk.inj (Option.some.inj h)
    refine ⟨by simp, fun screen _ => ?_⟩
    cases screen <;> exact .refl _
  | tapCallout n =>
    simp only [act, Option.bind_eq_bind, Option.bind_eq_some_iff] at h
    obtain ⟨view, -, data, -, h⟩ := h
    obtain ⟨rfl, rfl⟩ := Prod.mk.inj (Option.some.inj h)
    refine ⟨by simp, fun screen _ => ?_⟩
    cases screen <;> exact .refl _
  | selectRow n | present n | closeMessage n | openComments n | closeComments n =>
    simp only [act, Option.bind_eq_bind, Option.bind_eq_some_iff] at h
    obtain ⟨yak, -, h⟩ := h
    obtain ⟨rfl, rfl⟩ := Prod.mk.inj (Option.some.inj h)
    refine ⟨by simp, fun screen _ => ?_⟩
    cases screen <;> exact .refl _

end Device

/-! ### Fetches in the back end -/

theorem Device.IsFetch.tag {ι κ τ D : Type} {r : Request κ τ D} (h : IsFetch r) (i : ι) :
    IsFetch (r.tag i) := by
  obtain ⟨loc, radius, k, rfl⟩ := h
  exact ⟨loc, radius, (i, k), rfl⟩

/-- Fetches join the outstanding reads, and change nothing else. -/
theorem Remote.issueAll_fetches {κ τ D : Type} {s t : Remote κ τ D} {calls : List (Request κ τ D)}
    (hcalls : ∀ r ∈ calls, Device.IsFetch r) (h : s.issueAll calls = some t) :
    t.docs = s.docs ∧ t.writes = s.writes ∧ t.puts = s.puts ∧ t.adds = s.adds ∧
      ∀ r ∈ t.reads, r ∈ s.reads ∨ r.call? = none ∧ r.rawSnapshot = none := by
  induction calls generalizing s with
  | nil =>
    obtain rfl := Option.some.inj h
    exact ⟨rfl, rfl, rfl, rfl, fun r => Or.inl⟩
  | cons call calls ih =>
    obtain ⟨u, hu, h⟩ := Option.bind_eq_some_iff.mp h
    obtain ⟨loc, radius, k, rfl⟩ := hcalls call List.mem_cons_self
    obtain rfl := Option.some.inj hu
    obtain ⟨hdocs, hwrites, hputs, hadds, hreads⟩ :=
      ih (fun r hr => hcalls r (List.mem_cons_of_mem _ hr)) h
    refine ⟨hdocs, hwrites, hputs, hadds, fun r hr => ?_⟩
    rcases hreads r hr with hr | hr
    · rcases List.mem_append.mp hr with hr | hr
      · exact Or.inl hr
      · obtain rfl := List.mem_singleton.mp hr
        exact Or.inr ⟨rfl, rfl⟩
    · exact Or.inr hr

/-! ### Reading users -/

namespace World

variable {ι D : Type}

/-- A step of the services, or of a user who only reads. -/
def Event.IsReadOnly : Event ι D → Prop
  | .act _ a => a.IsReadOnly
  | .signal _ => True

instance : (e : Event ι D) → Decidable e.IsReadOnly
  | .act _ a => inferInstanceAs (Decidable a.IsReadOnly)
  | .signal _ => isTrue trivial

/-- The fetch that a signal completes: its device, its completion, its place and its radius. -/
def completes (s : World ι D) : Signal → Option ((ι × Completion) × GeoPoint × D)
  | .deliver n => match s.remote.reads[n]? with
    | some ⟨.fetchYaks loc radius k, some _⟩ => some (k, loc, radius)
    | _ => none
  | _ => none

/-- The place and the radius of the fetch that each screen shows, if it shows one. -/
def shownFetch [DecidableEq ι] (shown : ι → FetchingScreen → Option (GeoPoint × D))
    (s : World ι D) : Event ι D → ι → FetchingScreen → Option (GeoPoint × D)
  | .act j a => fun i screen =>
    if j = i ∧ (s.devices i).Clears a screen then none else shown i screen
  | .signal g => fun i screen => match completes s g with
    | some (k, place) => if k.1 = i ∧ k.2.screen = screen then some place else shown i screen
    | none => shown i screen

/-- The invariant of reading users, for the collection `docs`. -/
structure Reading [LE D] [DecidableLE D] (distance : GeoPoint → GeoPoint → D)
    (docs : List Document) (shown : ι → FetchingScreen → Option (GeoPoint × D)) (s : World ι D) :
    Prop where
  docs_eq : s.remote.docs = docs
  reads : ∀ r ∈ s.remote.reads, r.call? = none ∧
    ∀ snapshot, r.rawSnapshot = some snapshot → snapshot = docs
  writes : s.remote.writes = []
  puts : s.remote.puts = []
  adds : s.remote.adds = []
  shows : ∀ i screen place, shown i screen = some place →
    ((s.devices i).fetched screen).Perm (yaksWithin distance place.1 place.2 docs)

variable [LinearOrder D] {docs : List Document}
  {shown : ι → FetchingScreen → Option (GeoPoint × D)} {P : Platform D} {s t : World ι D}

/-- A fetched result is what is stored within the radius. -/
theorem Reading.eq_yaksWithin (h : Reading P.distance docs shown s) {n : ℕ} {loc : GeoPoint}
    {radius : D} {k : ι × Completion} {snapshot : List Document} {yaks : List Yak}
    (hread : s.remote.reads[n]? = some ⟨.fetchYaks loc radius k, some snapshot⟩)
    (hyaks : fetchYaks P.distance loc radius snapshot = some yaks) :
    yaks = yaksWithin P.distance loc radius docs := by
  obtain rfl := (h.reads _ (List.mem_of_getElem? hread)).2 snapshot rfl
  exact (fetchLoop_eq_some_iff.mp hyaks).2

/-- A signal that runs no completion leaves everything as it is, but for the reads. -/
theorem Reading.signal (h : Reading P.distance docs shown s) {g : Signal}
    {remote : Remote (ι × Completion) (ι × Yak) D}
    (he : Remote.Effect P.distance s.remote g remote .nothing) :
    completes s g = none ∧ Reading P.distance docs shown { s with remote := remote } := by
  have herase {n : ℕ} : ∀ r ∈ s.remote.reads.eraseIdx n, r.call? = none ∧
      ∀ snapshot, r.rawSnapshot = some snapshot → snapshot = docs := fun r hr =>
    h.reads r (List.mem_of_mem_eraseIdx hr)
  cases he with
  | snapshot hread =>
    refine ⟨rfl, { h with reads := fun r hr => ?_ }⟩
    rcases List.mem_or_eq_of_mem_set hr with hr | rfl
    · exact h.reads r hr
    · exact ⟨(h.reads _ (List.mem_of_getElem? hread)).1, fun snapshot hs =>
        Option.some.inj hs ▸ h.docs_eq⟩
  | fail hread => exact ⟨rfl, { h with reads := herase }⟩
  | found hread hid => exact absurd (h.reads _ (List.mem_of_getElem? hread)).1 (by simp [Read.call?,
      Callback.call?])
  | missed hread hnone => exact absurd (h.reads _ (List.mem_of_getElem? hread)).1 (by
      simp [Read.call?, Callback.call?])
  | apply hwrite | reject hwrite => exact absurd hwrite (by simp [h.writes])
  | store hput | failPut hput => exact absurd hput (by simp [h.puts])
  | complete hput hstored => exact absurd hput (by simp [h.puts])
  | create hadd hid => exact absurd hadd (by simp [h.adds])
  | failCreate hadd => exact absurd hadd (by simp [h.adds])

variable [DecidableEq ι] [Zero D] [OfNat D 10000000]

/-- **Reading users change nothing.** -/
theorem Reading.step (h : Reading P.distance docs shown s) {e : Event ι D} (he : e.IsReadOnly)
    (ht : (machine ι P).step s e = some t) :
    Reading P.distance docs (shownFetch shown s e) t := by
  cases e with
  | act j a =>
    obtain ⟨d, calls, remote, hact, hissue, rfl⟩ := step_act_eq_some.mp ht
    obtain ⟨hcalls, hfetched⟩ := Device.fetched_act he hact
    have htagged : ∀ r ∈ calls.map (Request.tag j), Device.IsFetch r := by
      intro r hr
      obtain ⟨call, hcall, rfl⟩ := List.mem_map.mp hr
      exact (hcalls call hcall).tag j
    obtain ⟨hdocs, hwrites, hputs, hadds, hreads⟩ := Remote.issueAll_fetches htagged hissue
    refine ⟨hdocs.trans h.docs_eq, fun r hr => ?_, hwrites.trans h.writes, hputs.trans h.puts,
      hadds.trans h.adds, fun i screen place hplace => ?_⟩
    · rcases hreads r hr with hr | ⟨hcall, hsnap⟩
      · exact h.reads r hr
      · exact ⟨hcall, fun snapshot hs => absurd (hsnap.symm.trans hs) (by simp)⟩
    · simp only [shownFetch] at hplace
      split_ifs at hplace with hclears
      have hshown := h.shows i screen place hplace
      show ((Function.update s.devices j d i).fetched screen).Perm _
      by_cases hij : i = j
      · subst hij
        rw [Function.update_self]
        exact (hfetched screen fun hc => hclears ⟨rfl, hc⟩).trans hshown
      · rw [Function.update_of_ne hij]
        exact hshown
  | signal g =>
    cases effect_of_step ht with
    | signal hsignal =>
      obtain ⟨hnone, hreading⟩ := h.signal hsignal
      have hshown : shownFetch shown s (.signal g) = shown := by
        simp only [shownFetch, hnone]
      rw [hshown]
      exact hreading
    | @completed g remote i k yaks hsignal =>
      cases hsignal with
      | @fetched n loc radius k' snapshot yaks' hread hyaks =>
        have hshown : completes s (.deliver n) = some ((i, k), loc, radius) := by
          simp only [completes, hread]
        have hwithin := h.eq_yaksWithin hread hyaks
        refine ⟨h.docs_eq, fun r hr => h.reads r (List.mem_of_mem_eraseIdx hr), h.writes, h.puts,
          h.adds, fun j screen place hplace => ?_⟩
        simp only [shownFetch, hshown] at hplace
        show ((Function.update s.devices i _ j).fetched screen).Perm _
        by_cases hij : i = j
        · subst hij
          rw [Function.update_self]
          refine (Device.fetched_complete P _ k yaks screen).trans ?_
          by_cases hscreen : k.screen = screen
          · rw [if_pos ⟨rfl, hscreen⟩] at hplace
            rw [if_pos hscreen, ← Option.some.inj hplace, hwithin]
          · rw [if_neg fun hp => hscreen hp.2] at hplace
            rw [if_neg hscreen]
            exact h.shows i screen place hplace
        · rw [if_neg fun hp => hij hp.1] at hplace
          rw [Function.update_of_ne (Ne.symm hij)]
          exact h.shows j screen place hplace

/-- The fetches that the screens show after a run. -/
def fetchesShown (P : Platform D) (s : World ι D) (es : List (Event ι D)) :
    ι → FetchingScreen → Option (GeoPoint × D) :=
  (machine ι P).history shownFetch (fun _ _ => none) s es

/-- **Agreement.** From a world at rest, whatever it has stored, and in every run in which users
only read, with calls that succeed or fail in any order: the collection stays as it is, and a screen
that shows a fetch shows exactly the stored yaks within its radius. So two screens of any devices
agree, up to the order, when the fetches they show have the same place and radius. -/
theorem agree {es : List (Event ι D)} (hrest : s.remote.Quiescent)
    (hread : (machine ι P).Along (fun _ e => e.IsReadOnly) s es)
    (ht : (machine ι P).run s es = some t) :
    t.remote.docs = s.remote.docs ∧
    (∀ i screen place, fetchesShown P s es i screen = some place →
      ((t.devices i).fetched screen).Perm
        (yaksWithin P.distance place.1 place.2 s.remote.docs)) ∧
    ∀ i j screen screen' place, fetchesShown P s es i screen = some place →
      fetchesShown P s es j screen' = some place →
      ((t.devices i).fetched screen).Perm ((t.devices j).fetched screen') := by
  obtain ⟨hreads, hwrites, hputs, hadds⟩ := hrest
  have hstart : Reading P.distance s.remote.docs (fun _ _ => none) s :=
    ⟨rfl, by simp [hreads], hwrites, hputs, hadds, by simp⟩
  have h : Reading P.distance s.remote.docs (fetchesShown P s es) t :=
    Machine.history_induction (A := fun _ e => e.IsReadOnly)
      (I := fun s' shown => Reading P.distance s.remote.docs shown s')
      (fun h he ht => h.step he ht) hstart hread ht
  exact ⟨h.docs_eq, h.shows, fun i j screen screen' place hi hj =>
    (h.shows i screen place hi).trans (h.shows j screen' place hj).symm⟩

/-- The list of one device and the map of another one, whose fetches are outstanding together. -/
theorem agree_list_and_map :
    let es : List (Event (Fin 2) ℕ) := [.act 0 (.loadList 1), .act 1 .loadMap,
      .signal (.snapshot 1), .signal (.snapshot 0), .signal (.deliver 1),
      .act 0 (.saveRadius (some 3)), .signal (.deliver 0)]
    ∃ t, (machine (Fin 2) Platform.discrete).run (single (newYak "a" ⟨0, 0⟩ 0) ⟨0, 0⟩) es = some t ∧
      ((t.devices 0).fetched .list).Perm ((t.devices 1).fetched .map) ∧
      ((t.devices 0).fetched .list).length = 1 := by
  intro es
  have h : ((machine (Fin 2) Platform.discrete).run (single (newYak "a" ⟨0, 0⟩ 0) ⟨0, 0⟩) es).map
      (fun t => ((t.devices 0).fetched .list).length) = some 1 := by decide +kernel
  obtain ⟨t, ht, hlength⟩ := Option.map_eq_some_iff.mp h
  have hagree := (agree ⟨rfl, rfl, rfl, rfl⟩ (by decide +kernel) ht).2.2
  exact ⟨t, ht, hagree 0 1 .list .map (⟨0, 0⟩, 10000000) (by decide +kernel) (by decide +kernel),
    hlength⟩

end World

end SnapYak
