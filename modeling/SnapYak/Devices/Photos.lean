import SnapYak.Devices.Sound
import SnapYak.Store.Upload

/-!
# The photo of every yak on a device

A copy of a yak on a device has come a long way: its photo was uploaded by some device, its document
was created afterwards, a fetch took it from a snapshot, and it was handed on from screen to screen
and changed by votes and replies. The device knows the photo by the name in the copy alone, and asks
Storage for it at any later time.

When the app has made the whole collection, this always works: `fetchImage` finds the very photo
that the yak was uploaded with, for every copy on every device and for all time.

## Main results

* `Device.filterMap_upload?_act` : the uploads of an action.
* `World.uploads_run` : the photos that were uploaded in a run.
* `World.copy_photo` : the photos of the copies on the devices.
-/

namespace SnapYak

/-! ### Uploads -/

/-- The name and the photo of an upload. -/
def Request.upload? {κ τ D : Type} : Request κ τ D → Option (String × Data)
  | .putData guid data => some (photoName guid, data)
  | .getDocuments _ => none

@[simp] theorem Request.upload?_tag {ι κ τ D : Type} (i : ι) (r : Request κ τ D) :
    (r.tag i).upload? = r.upload? := by
  cases r with
  | getDocuments cb => cases cb <;> rfl
  | putData guid data => rfl

theorem Request.filterMap_upload?_tag {ι κ τ D : Type} (i : ι) (calls : List (Request κ τ D)) :
    (calls.map (Request.tag i)).filterMap Request.upload? = calls.filterMap Request.upload? := by
  rw [List.filterMap_map]
  exact List.filterMap_congr fun r _ => r.upload?_tag i

/-- The name and the photo of an upload that is not given up on the device. -/
def Action.upload? {D : Type} : Action D → Option (String × Data)
  | .upload guid (some data) false false => some (photoName guid, data)
  | _ => none

theorem Action.upload?_eq_some {D : Type} {a : Action D} {name : String} {data : Data}
    (h : a.upload? = some (name, data)) :
    ∃ guid, a = .upload guid (some data) false false ∧ name = photoName guid := by
  match a, h with
  | .upload guid (some data') false false, h =>
    obtain ⟨rfl, rfl⟩ := Prod.mk.inj (Option.some.inj h)
    exact ⟨guid, rfl, rfl⟩

namespace Device

variable {D : Type}

theorem filterMap_upload?_fetchCalls {completion : Completion} {fetch : Option (GeoPoint × D)} :
    (fetchCalls completion fetch).filterMap Request.upload? = [] := by
  cases fetch <;> rfl

theorem filterMap_upload?_uploadButtonAction (guid : Guid) (jpegData : Option Data)
    (fileExists writeFails : Bool) :
    (uploadButtonAction guid jpegData fileExists writeFails : Calls D).filterMap Request.upload? =
      (Action.upload guid jpegData fileExists writeFails : Action D).upload?.toList := by
  match jpegData, fileExists, writeFails with
  | none, _, _ => rfl
  | some _, true, _ => rfl
  | some _, false, true => rfl
  | some _, false, false => rfl

variable [LinearOrder D] [Zero D] [OfNat D 10000000] {P : Platform D} {d d' : Device D}
  {calls : Calls D}

/-- Only the upload button uploads. -/
theorem filterMap_upload?_act {a : Action D} (h : d.act P a = some (d', calls)) :
    calls.filterMap Request.upload? = a.upload?.toList := by
  cases a with
  | upload guid jpegData fileExists writeFails =>
    obtain ⟨rfl, rfl⟩ := Prod.mk.inj (Option.some.inj h)
    exact filterMap_upload?_uploadButtonAction ..
  | loadList | showList | pullToRefresh | updateList | loadMap =>
    obtain ⟨rfl, rfl⟩ := Prod.mk.inj (Option.some.inj h)
    exact filterMap_upload?_fetchCalls
  | showMap | updateMap =>
    simp only [act, Option.bind_eq_bind, Option.bind_eq_some_iff] at h
    obtain ⟨r, -, h⟩ := h
    obtain ⟨rfl, rfl⟩ := Prod.mk.inj (Option.some.inj h)
    exact filterMap_upload?_fetchCalls
  | changeLocation | selectSegment | loadSettings | saveRadius =>
    obtain ⟨rfl, rfl⟩ := Prod.mk.inj (Option.some.inj h)
    rfl
  | voteRow | voteMessage =>
    simp only [act, Option.bind_eq_bind, Option.bind_eq_some_iff] at h
    obtain ⟨yak, -, r, -, h⟩ := h
    obtain ⟨rfl, rfl⟩ := Prod.mk.inj (Option.some.inj h)
    exact List.filterMap_eq_nil_iff.mpr (by simp [updateYakVote, Request.upload?])
  | tapCallout =>
    simp only [act, Option.bind_eq_bind, Option.bind_eq_some_iff] at h
    obtain ⟨view, -, data, -, h⟩ := h
    obtain ⟨rfl, rfl⟩ := Prod.mk.inj (Option.some.inj h)
    rfl
  | reply =>
    simp only [act, Option.bind_eq_bind, Option.bind_eq_some_iff] at h
    obtain ⟨yak, -, h⟩ := h
    obtain ⟨rfl, rfl⟩ := Prod.mk.inj (Option.some.inj h)
    exact List.filterMap_eq_nil_iff.mpr (by simp [updateComments, Request.upload?])
  | selectRow | present | closeMessage | openComments | closeComments =>
    simp only [act, Option.bind_eq_bind, Option.bind_eq_some_iff] at h
    obtain ⟨yak, -, h⟩ := h
    obtain ⟨rfl, rfl⟩ := Prod.mk.inj (Option.some.inj h)
    rfl

end Device

theorem Remote.uploads_issueAll {κ τ D : Type} {s t : Remote κ τ D} {calls : List (Request κ τ D)}
    (h : s.issueAll calls = some t) :
    t.uploads = s.uploads ++ calls.filterMap Request.upload? := by
  induction calls generalizing s with
  | nil =>
    obtain rfl := Option.some.inj h
    exact (List.append_nil _).symm
  | cons r calls ih =>
    obtain ⟨u, hu, h⟩ := Option.bind_eq_some_iff.mp h
    rw [ih h]
    cases r with
    | getDocuments cb =>
      obtain rfl := Option.some.inj hu
      rfl
    | putData guid data =>
      simp only [Remote.issue] at hu
      split_ifs at hu
      obtain rfl := Option.some.inj hu
      exact List.append_assoc ..

namespace World

variable {ι D : Type} [DecidableEq ι] [LinearOrder D] [Zero D] [OfNat D 10000000]
  {P : Platform D} {s t : World ι D} {es : List (Event ι D)}

/-- The name and the photo that a step uploads. -/
def Event.upload? {ι D : Type} : Event ι D → Option (String × Data)
  | .act _ a => a.upload?
  | .signal _ => none

/-- The names in use after a run, with the photos that were uploaded under them. -/
theorem uploads_run (ht : (machine ι P).run s es = some t) :
    t.remote.uploads = s.remote.uploads ++ es.filterMap Event.upload? := by
  induction es generalizing s with
  | nil =>
    obtain rfl : s = t := by simpa using ht
    exact (List.append_nil _).symm
  | cons e es ih =>
    obtain ⟨u, hu, ht⟩ := Machine.run_cons_eq_some.mp ht
    have hstep : u.remote.uploads = s.remote.uploads ++ e.upload?.toList := by
      cases e with
      | act i a =>
        obtain ⟨d, calls, remote, hact, hissue, rfl⟩ := step_act_eq_some.mp hu
        refine (Remote.uploads_issueAll hissue).trans ?_
        rw [Request.filterMap_upload?_tag, Device.filterMap_upload?_act hact]
        rfl
      | signal g =>
        rw [Event.upload?, Option.toList_none, List.append_nil]
        cases effect_of_step hu with
        | signal he => exact he.uploads_eq
        | completed he => exact he.uploads_eq
    rw [ih ht, hstep, List.append_assoc, List.filterMap_cons]
    cases e.upload? <;> rfl

/-- The invariant of photos holds in every run of a world. -/
theorem photographed_run {old : List ℕ} (h : Remote.Photographed old s.remote)
    (ht : (machine ι P).run s es = some t) : Remote.Photographed old t.remote := by
  obtain ⟨es', hes'⟩ := exists_remote_run ht
  exact Machine.run_invariant (fun h hu => Remote.Photographed.step h hu) h hes'

omit [DecidableEq ι] [LinearOrder D] [Zero D] [OfNat D 10000000] in
/-- The photo of a stored yak is kept. -/
theorem kept_of_stored (h : Remote.Photographed [] s.remote) {url : String}
    (hurl : (stored s.remote.docs url).isSome) : Remote.Kept s.remote url := by
  obtain ⟨d, hd, hdurl⟩ := isSome_stored_iff.mp hurl
  obtain ⟨url', hurl', hkept⟩ := h.docs d.url?
    (List.mem_map.mpr ⟨d, List.mem_filter.mpr ⟨hd, by simp⟩, rfl⟩)
  exact Option.some.inj (hdurl.symm.trans hurl') ▸ hkept

/-- **The photos of the copies on the devices.** Start from an empty collection. After every run,
with calls that succeed or fail in any order, every copy of a yak on every device names the photo of
one upload of the run; `fetchImage` looks for it where it was uploaded to, and finds it there now
and after every continuation of the run. -/
theorem copy_photo {s₀ : World ι D} (h₀ : Initial s₀) (hdocs : s₀.remote.docs = [])
    (huploads : s₀.remote.uploads = []) (ht : (machine ι P).run s₀ es = some t) {i : ι} {y : Yak}
    (hy : y ∈ (t.devices i).copies) : ∃ j guid data,
      .act j (.upload guid (some data) false false) ∈ es ∧ y.imageUrl = photoName guid ∧
      fetchImage y.imageUrl = .storage (imageUploadRef (photoName guid)) ∧
      ∀ es' u, (machine ι P).run t es' = some u →
        u.remote.objects (imageUploadRef (photoName guid)) = some data := by
  have hsound : Sound t := h₀.sound.run ht
  have hstart : Remote.Photographed [] s₀.remote := by
    have h := h₀.quiescent.photographed huploads
    rwa [hdocs] at h
  have hphoto : Remote.Photographed [] t.remote := photographed_run hstart ht
  have hstored := (hsound.devices i).copies y hy
  obtain ⟨data, hdata, -⟩ := kept_of_stored hphoto hstored
  have hup : t.remote.uploads = es.filterMap Event.upload? := by
    rw [uploads_run ht, huploads, List.nil_append]
  obtain ⟨e, he, hupload⟩ := List.mem_filterMap.mp (hup ▸ hdata)
  cases e with
  | signal g => exact absurd hupload (by simp [Event.upload?])
  | act j a =>
    obtain ⟨guid, rfl, hname⟩ := Action.upload?_eq_some hupload
    refine ⟨j, guid, data, he, hname, hname ▸ fetchImage_generated guid, fun es' u hu => ?_⟩
    -- The photo that is kept later on was uploaded under the same name, so it is the same one.
    have hphoto' : Remote.Photographed [] u.remote := photographed_run hphoto hu
    obtain ⟨es'', hes''⟩ := exists_remote_run hu
    have hstored' := (hsound.integrity.preserved_run hes'').isSome_stored hstored
    obtain ⟨data', hdata', hobject⟩ := kept_of_stored hphoto' hstored'
    have hmem : (y.imageUrl, data) ∈ u.remote.uploads := by
      rw [uploads_run hu]
      exact List.mem_append_left _ hdata
    have hsame : (y.imageUrl, data) = (y.imageUrl, data') :=
      List.inj_on_of_nodup_map hphoto'.nodup_uploads hmem hdata' rfl
    rw [← hname, hobject, (Prod.mk.inj hsame).2]

/-- One device uploads a photo, and the list of another one shows the yak while a second upload is
still outstanding. -/
theorem copy_photo_after_upload :
    let start : World (Fin 2) ℕ := ⟨.empty, fun _ => .unused (some ⟨0, 0⟩)⟩
    let guid := Guid.ofString "a" (by decide)
    let es : List (Event (Fin 2) ℕ) := [.act 0 (.upload guid (some [1, 2]) false false),
      .signal (.store 0), .signal (.complete 0 ⟨0, 0⟩ 0), .signal (.create 0 0),
      .act 1 (.upload (.ofString "b" (by decide)) (some [3]) false false),
      .act 1 (.loadList 0), .signal (.snapshot 0), .signal (.deliver 0)]
    ∃ t, (machine (Fin 2) Platform.discrete).run start es = some t ∧
      ∃ y ∈ (t.devices 1).copies, ∃ guid data, y.imageUrl = photoName guid ∧
        ∀ es' u, (machine (Fin 2) Platform.discrete).run t es' = some u →
          u.remote.objects (imageUploadRef (photoName guid)) = some data := by
  intro start guid es
  have h : ((machine (Fin 2) Platform.discrete).run start es).map
      (fun t => (t.devices 1).copies.head?.isSome) = some true := by decide +kernel
  obtain ⟨t, ht, hsome⟩ := Option.map_eq_some_iff.mp h
  obtain ⟨y, hy⟩ := Option.isSome_iff_exists.mp hsome
  have hy : y ∈ (t.devices 1).copies := List.mem_of_mem_head? hy
  have hstart : Initial start :=
    ⟨⟨rfl, rfl, rfl, rfl⟩, wellFormed_nil, by simp [start, stored, Remote.empty],
      by simp [start, stored, Remote.empty], fun _ => rfl, fun _ => UserDefaults.voted_empty⟩
  obtain ⟨j, guid', data, -, hname, -, hkept⟩ := copy_photo hstart rfl rfl ht hy
  exact ⟨t, ht, y, hy, guid', data, hname, hkept⟩

end World

end SnapYak
