import SnapYak.Store.Effect

/-!
# Documents and their photos

A photo is stored first and its document is created in the completion of the upload, so a document
never names a photo that is not there. The photo stays what it was, since no other call writes to
its object: generated names do not repeat, and different names make different objects.

The collection may hold documents from before the run, of any form; the invariant is about the
documents created since, those whose identifier is not in `old`.

## Main definitions

* `Remote.Kept` : a photo of the run is stored completely under its name.
* `Remote.Photographed` : the invariant.

## Main results

* `Remote.Photographed.step` : every call and every signal preserves the invariant.
* `Remote.document_photo` : the photo of every document created in a run.
-/

namespace SnapYak

namespace Remote

variable {κ τ D : Type}

/-! ### The invariant -/

/-- The documents that are not among the `old` ones. -/
def newDocs (old : List ℕ) (docs : List Document) : List Document :=
  docs.filter fun d => d.documentID ∉ old

theorem newDocs_updateData (old : List ℕ) (docs : List Document) (id : ℕ) (fields : Dictionary) :
    newDocs old (updateData docs id fields) = updateData (newDocs old docs) id fields := by
  rw [newDocs, updateData, List.filter_map]
  refine congrArg _ (List.filter_congr fun d _ => ?_)
  simp only [Function.comp_apply]
  split_ifs <;> rfl

/-- The photo uploaded as `fileName` is stored completely. -/
def Kept (s : Remote κ τ D) (fileName : String) : Prop :=
  ∃ data, (fileName, data) ∈ s.uploads ∧ s.objects (imageUploadRef fileName) = some data

/-- The invariant of uploads, for a collection that held the documents `old` at first. -/
structure Photographed (old : List ℕ) (s : Remote κ τ D) : Prop where
  nodup_uploads : (s.uploads.map Prod.fst).Nodup
  generated : ∀ u ∈ s.uploads, ∃ guid, u.1 = photoName guid
  /-- A photo on its way, and the photo in Storage once it is stored. -/
  puts : ∀ p ∈ s.puts, (p.fileName, p.data) ∈ s.uploads ∧ (p.isStored → Kept s p.fileName)
  adds : ∀ y ∈ s.adds, Kept s y.imageUrl
  docs : ∀ u ∈ (newDocs old s.docs).map Document.url?, ∃ url, u = some url ∧ Kept s url
  old_subset : ∀ id ∈ old, id ∈ s.docs.map Document.documentID
  /-- A name is on its way or in a document, and only once. -/
  once : (s.pendingNames.map some ++ (newDocs old s.docs).map Document.url?).Nodup

variable {old : List ℕ} {s t : Remote κ τ D}

theorem Kept.mono {fileName : String} (h : Kept s fileName)
    (huploads : ∀ u ∈ s.uploads, u ∈ t.uploads) (hobjects : t.objects = s.objects) :
    Kept t fileName := by
  obtain ⟨data, hdata, hobj⟩ := h
  exact ⟨data, huploads _ hdata, hobjects ▸ hobj⟩

namespace Photographed

/-- No new photo, and what is written down names a photo that is kept. -/
theorem mono (h : Photographed old s) (huploads : t.uploads = s.uploads)
    (hobjects : t.objects = s.objects) (hdocs : t.docs = s.docs) (hputs : ∀ p ∈ t.puts, p ∈ s.puts)
    (hadds : ∀ y ∈ t.adds, y ∈ s.adds ∨ Kept s y.imageUrl)
    (hnames : t.pendingNames.Subperm s.pendingNames) : Photographed old t := by
  have hkept {url : String} (hu : Kept s url) : Kept t url :=
    hu.mono (fun u hu => huploads ▸ hu) hobjects
  refine ⟨huploads ▸ h.nodup_uploads, huploads ▸ h.generated, fun p hp => ?_, fun y hy => ?_,
    fun u hu => ?_, hdocs ▸ h.old_subset, ?_⟩
  · obtain ⟨hup, hkeep⟩ := h.puts p (hputs p hp)
    exact ⟨huploads ▸ hup, fun hst => hkept (hkeep hst)⟩
  · rcases hadds y hy with hy | hy
    · exact hkept (h.adds y hy)
    · exact hkept hy
  · obtain ⟨url, hurl, hk⟩ := h.docs u (hdocs ▸ hu)
    exact ⟨url, hurl, hkept hk⟩
  · obtain ⟨l, hl, hsub⟩ := hnames
    rw [hdocs, ← ((hl.map some).append_right _).nodup_iff]
    exact ((hsub.map some).append (List.Sublist.refl _)).nodup h.once

/-- The names on their way and in documents are names of uploads. -/
theorem mem_uploads_of_mem_once (h : Photographed old s) {name : String}
    (hname : some name ∈ s.pendingNames.map some ++ (newDocs old s.docs).map Document.url?) :
    name ∈ s.uploads.map Prod.fst := by
  have hkept {url : String} (hk : Kept s url) : url ∈ s.uploads.map Prod.fst := by
    obtain ⟨data, hdata, -⟩ := hk
    exact List.mem_map.mpr ⟨_, hdata, rfl⟩
  rcases List.mem_append.mp hname with hname | hname
  · obtain ⟨name', hmem, he⟩ := List.mem_map.mp hname
    obtain rfl := Option.some.inj he
    rcases List.mem_append.mp hmem with hmem | hmem
    · obtain ⟨p, hp, rfl⟩ := List.mem_map.mp hmem
      exact List.mem_map.mpr ⟨_, (h.puts p hp).1, rfl⟩
    · obtain ⟨y, hy, rfl⟩ := List.mem_map.mp hmem
      exact hkept (h.adds y hy)
  · obtain ⟨url, hurl, hk⟩ := h.docs _ hname
    exact Option.some.inj hurl ▸ hkept hk

/-- A new upload has a name of its own. -/
theorem issue (h : Photographed old s) {r : Request κ τ D} (ht : s.issue r = some t) :
    Photographed old t := by
  cases r with
  | getDocuments cb =>
    obtain rfl := Option.some.inj ht
    exact h.mono rfl rfl rfl (fun _ => id) (fun _ => Or.inl) (List.Subperm.refl _)
  | putData guid data =>
    simp only [Remote.issue] at ht
    split_ifs at ht with hnew
    obtain rfl := Option.some.inj ht
    have hkept {url : String} (hu : Kept s url) := hu.mono
      (t := { s with
        puts := s.puts ++ [⟨photoName guid, data, false⟩]
        uploads := s.uploads ++ [(photoName guid, data)] })
      (fun u hu => List.mem_append_left _ hu) rfl
    refine ⟨?_, fun u hu => ?_, fun p hp => ?_, fun y hy => hkept (h.adds y hy), fun u hu => ?_,
      h.old_subset, ?_⟩
    · rw [List.map_append, List.nodup_append_comm]
      exact List.Nodup.cons hnew h.nodup_uploads
    · rcases List.mem_append.mp hu with hu | hu
      · exact h.generated u hu
      · exact ⟨guid, by rw [List.mem_singleton.mp hu]⟩
    · rcases List.mem_append.mp hp with hp | hp
      · exact ⟨List.mem_append_left _ (h.puts p hp).1, fun hst => hkept ((h.puts p hp).2 hst)⟩
      · rw [List.mem_singleton.mp hp]
        exact ⟨List.mem_append_right _ List.mem_cons_self, fun hst => absurd hst (by simp)⟩
    · obtain ⟨url, hurl, hk⟩ := h.docs u hu
      exact ⟨url, hurl, hkept hk⟩
    · have hperm : ((s.puts ++ [(⟨photoName guid, data, false⟩ : Put)]).map Put.fileName ++
          s.adds.map Yak.imageUrl).Perm (photoName guid :: s.pendingNames) := by
        rw [List.map_append, List.append_assoc]
        exact List.perm_middle
      refine ((hperm.map some).append_right _).nodup_iff.mpr (List.nodup_cons.mpr ⟨fun hmem => ?_,
        h.once⟩)
      exact hnew (h.mem_uploads_of_mem_once hmem)

/-- **A photo is stored.** Whatever was kept still is: an object of the same name would belong to
the same upload. -/
theorem kept_store (h : Photographed old s) {p : Put} (hp : p ∈ s.puts) {puts : List Put}
    {fileName : String} (hk : Kept s fileName ∨ fileName = p.fileName) :
    Kept { s with
      objects := Function.update s.objects (imageUploadRef p.fileName) (some p.data)
      puts := puts } fileName := by
  have hup := (h.puts p hp).1
  rcases hk with ⟨data, hdata, hobj⟩ | rfl
  · by_cases href : imageUploadRef fileName = imageUploadRef p.fileName
    · obtain ⟨guid, hguid⟩ := h.generated _ hdata
      obtain ⟨guid', hguid'⟩ := h.generated _ hup
      have hname : fileName = p.fileName := by
        rw [show fileName = photoName guid from hguid,
          show p.fileName = photoName guid' from hguid'] at href ⊢
        exact imageUploadRef_injective href
      exact ⟨p.data, hname ▸ hup, by rw [href]; exact Function.update_self ..⟩
    · exact ⟨data, hdata, (Function.update_of_ne href ..).trans hobj⟩
  · exact ⟨p.data, hup, Function.update_self ..⟩

theorem store (h : Photographed old s) {n : ℕ} {p : Put} (hput : s.puts[n]? = some p) :
    Photographed old { s with
      objects := Function.update s.objects (imageUploadRef p.fileName) (some p.data)
      puts := s.puts.set n { p with isStored := true } } := by
  have hp := List.mem_of_getElem? hput
  refine ⟨h.nodup_uploads, h.generated, fun q hq => ?_, fun y hy =>
    h.kept_store hp (Or.inl (h.adds y hy)), fun u hu => ?_, h.old_subset, ?_⟩
  · rcases List.mem_or_eq_of_mem_set hq with hq | rfl
    · exact ⟨(h.puts q hq).1, fun hst => h.kept_store hp (Or.inl ((h.puts q hq).2 hst))⟩
    · exact ⟨(h.puts p hp).1, fun _ => h.kept_store hp (Or.inr rfl)⟩
  · obtain ⟨url, hurl, hk⟩ := h.docs u hu
    exact ⟨url, hurl, h.kept_store hp (Or.inl hk)⟩
  · rw [pendingNames_store hput]
    exact h.once

/-- An overwrite keeps the names that the new documents carry. -/
theorem apply (h : Photographed old s) {writes : List (Write τ)} (f : Field) (target : Yak)
    (id : ℕ) :
    Photographed old
      { s with docs := updateData s.docs id (f.payload target), writes := writes } := by
  have hdec (d : Document) (hd : d ∈ newDocs old s.docs) : d.yak?.isSome := by
    obtain ⟨url, hurl, -⟩ := h.docs _ (List.mem_map.mpr ⟨d, hd, rfl⟩)
    rw [← Option.isSome_map (f := Yak.imageUrl), show d.yak?.map Yak.imageUrl = _ from hurl]
    rfl
  have hurls : (newDocs old (updateData s.docs id (f.payload target))).map Document.url? =
      (newDocs old s.docs).map Document.url? := by
    rw [newDocs_updateData, map_url?_updateData f target hdec]
  refine ⟨h.nodup_uploads, h.generated, h.puts, h.adds, hurls ▸ h.docs, ?_, ?_⟩
  · rw [map_documentID_updateData]
    exact h.old_subset
  · rw [hurls]
    exact h.once

/-- The new document carries the name of the photo it was created for. -/
theorem create (h : Photographed old s) {n id : ℕ} {y : Yak} (hadd : s.adds[n]? = some y)
    (hid : id ∉ s.docs.map Document.documentID) :
    Photographed old { s with
      docs := addDocument s.docs id y.dictionary, adds := s.adds.eraseIdx n } := by
  have hperm : ((newDocs old (addDocument s.docs id y.dictionary)).map Document.url?).Perm
      (some y.imageUrl :: (newDocs old s.docs).map Document.url?) := by
    have hfilter := (List.perm_orderedInsert (fun d e : Document => d.documentID ≤ e.documentID)
      ⟨id, y.dictionary.stored⟩ s.docs).filter fun d => d.documentID ∉ old
    rw [List.filter_cons_of_pos (by simpa using fun hold => hid (h.old_subset id hold))] at hfilter
    have hurl : Document.url? ⟨id, y.dictionary.stored⟩ = some y.imageUrl := by
      rw [Document.url?, Document.yak?, init?_stored_dictionary]
      rfl
    exact hurl ▸ hfilter.map Document.url?
  refine ⟨h.nodup_uploads, h.generated, h.puts, fun z hz => h.adds z (List.mem_of_mem_eraseIdx hz),
    fun u hu => ?_, fun id' hid' => ?_, ?_⟩
  · rcases List.mem_cons.mp (hperm.subset hu) with rfl | hu
    · exact ⟨y.imageUrl, rfl, h.adds y (List.mem_of_getElem? hadd)⟩
    · exact h.docs u hu
  · obtain ⟨d, hd, rfl⟩ := List.mem_map.mp (h.old_subset id' hid')
    exact List.mem_map.mpr ⟨d, mem_addDocument.mpr (Or.inr hd), rfl⟩
  -- The name moves from the pending ones to the documents.
  · refine ((hperm.append_left _).trans List.perm_middle).nodup_iff.mpr ?_
    have hpending := ((perm_cons_eraseIdx hadd).map Yak.imageUrl).append_left
      (s.puts.map Put.fileName)
    exact (((hpending.trans List.perm_middle).map some).append_right _).nodup_iff.mp h.once

variable [LE D] [DecidableLE D] {distance : GeoPoint → GeoPoint → D}

/-- Every signal preserves the invariant. -/
theorem signal (h : Photographed old s) {g : Signal} {o : Outcome κ}
    (he : Effect distance s g t o) : Photographed old t := by
  cases he with
  | apply hwrite => exact h.apply _ _ _
  | store hput => exact h.store hput
  | create hadd hid => exact h.create hadd hid
  | @complete n p loc date hput hstored =>
    refine h.mono rfl rfl rfl (fun _ hp => List.mem_of_mem_eraseIdx hp) (fun y hy => ?_)
      (pendingNames_complete hput).subperm
    rcases List.mem_append.mp hy with hy | hy
    · exact Or.inl hy
    · rw [List.mem_singleton.mp hy]
      exact Or.inr ((h.puts p (List.mem_of_getElem? hput)).2 hstored)
  | failPut hput =>
    exact h.mono rfl rfl rfl (fun _ hp => List.mem_of_mem_eraseIdx hp) (fun _ => Or.inl)
      (((List.eraseIdx_sublist ..).map _).append (List.Sublist.refl _)).subperm
  | failCreate hadd =>
    exact h.mono rfl rfl rfl (fun _ => id) (fun _ hy => Or.inl (List.mem_of_mem_eraseIdx hy))
      ((List.Sublist.refl _).append ((List.eraseIdx_sublist ..).map _)).subperm
  | _ => exact h.mono rfl rfl rfl (fun _ => id) (fun _ => Or.inl) (List.Subperm.refl _)

/-- Every step of the back end preserves the invariant. -/
theorem step (h : Photographed old s) {e : Event κ τ D}
    (ht : (machine κ τ distance).step s e = some t) : Photographed old t := by
  cases e with
  | issue r => exact h.issue ht
  | signal g =>
    obtain ⟨⟨u, o⟩, hsig, rfl⟩ := Option.map_eq_some_iff.mp ht
    exact h.signal (effect_of_signal hsig)

end Photographed

/-! ### Runs -/

/-- The name and the photo of an upload. -/
def Event.upload? : Event κ τ D → Option (String × Data)
  | .issue (.putData guid data) => some (photoName guid, data)
  | _ => none

/-- A back end that has not been used holds nothing of a run. -/
theorem Quiescent.photographed (h : s.Quiescent) (hs : s.uploads = []) :
    Photographed (s.docs.map Document.documentID) s := by
  have hnew : newDocs (s.docs.map Document.documentID) s.docs = [] :=
    List.filter_eq_nil_iff.mpr fun d hd => by simpa using ⟨d, hd, rfl⟩
  obtain ⟨-, -, hputs, hadds⟩ := h
  exact ⟨by simp [hs], by simp [hs], by simp [hputs], by simp [hadds], by simp [hnew], fun _ => id,
    by simp [pendingNames, hputs, hadds, hnew]⟩

section Runs

variable [LE D] [DecidableLE D] {distance : GeoPoint → GeoPoint → D}

theorem Effect.uploads_eq {g : Signal} {o : Outcome κ} (h : Effect distance s g t o) :
    t.uploads = s.uploads := by
  cases h <;> rfl

/-- The names in use are those of the uploads of the run. -/
theorem uploads_run {es : List (Event κ τ D)} (ht : (machine κ τ distance).run s es = some t) :
    t.uploads = s.uploads ++ es.filterMap Event.upload? := by
  induction es generalizing s with
  | nil =>
    obtain rfl : s = t := by simpa using ht
    exact (List.append_nil _).symm
  | cons e es ih =>
    obtain ⟨u, hu, ht⟩ := Machine.run_cons_eq_some.mp ht
    rw [ih ht]
    cases e with
    | issue r =>
      cases r with
      | getDocuments cb =>
        obtain rfl := Option.some.inj hu
        rfl
      | putData guid data =>
        simp only [machine, Remote.issue] at hu
        split_ifs at hu
        obtain rfl := Option.some.inj hu
        exact List.append_assoc ..
    | signal g =>
      obtain ⟨⟨u', o⟩, hsig, rfl⟩ := Option.map_eq_some_iff.mp hu
      rw [(effect_of_signal hsig).uploads_eq]
      rfl

/-- **Documents and their photos.** In every run that starts without outstanding calls, whatever the
collection holds, and with uploads and creations that complete or fail in any order: a document
created in the run names the photo of an upload of the run, which is stored completely where
`fetchImage` looks for it; the uploads of a run have different names, and each name is that of at
most one of the new documents. -/
theorem document_photo {es : List (Event κ τ D)} (h₀ : s.Quiescent) (hs : s.uploads = [])
    (ht : (machine κ τ distance).run s es = some t) :
    (∀ d ∈ newDocs (s.docs.map Document.documentID) t.docs, ∃ guid data,
      .issue (.putData guid data) ∈ es ∧ d.url? = some (photoName guid) ∧
      t.objects (imageUploadRef (photoName guid)) = some data ∧
      fetchImage (photoName guid) = .storage (imageUploadRef (photoName guid))) ∧
    ((es.filterMap Event.upload?).map Prod.fst).Nodup ∧
    ((newDocs (s.docs.map Document.documentID) t.docs).map Document.url?).Nodup := by
  have h : Photographed (s.docs.map Document.documentID) t :=
    Machine.run_invariant (fun h hu => Photographed.step h hu) (h₀.photographed hs) ht
  have hup : t.uploads = es.filterMap Event.upload? := by rw [uploads_run ht, hs, List.nil_append]
  refine ⟨fun d hd => ?_, hup ▸ h.nodup_uploads, h.once.of_append_right⟩
  obtain ⟨url, hurl, data, hdata, hobj⟩ := h.docs _ (List.mem_map.mpr ⟨d, hd, rfl⟩)
  obtain ⟨e, he, hed⟩ := List.mem_filterMap.mp (hup ▸ hdata)
  match e, hed with
  | .issue (.putData guid data'), hed =>
    obtain ⟨rfl, rfl⟩ := Prod.mk.inj (Option.some.inj hed)
    exact ⟨guid, data', he, hurl, hobj, fetchImage_generated guid⟩

/-- Of two uploads one fails, and the other one makes a document with its photo. -/
theorem document_photo_one_of_two :
    let es : List (Event Unit Unit ℕ) := [
      .issue (.putData (.ofString "0" (by decide)) [1]),
      .issue (.putData (.ofString "A-2" (by decide)) [2]),
      .signal (.store 1), .signal (.failPut 0), .signal (.complete 0 ⟨0, 0⟩ 0),
      .signal (.create 0 7)]
    ∃ t, (machine Unit Unit Platform.discrete.distance).run empty es = some t ∧
      t.docs.map Document.url? = [some "image_A-2.jpg"] ∧
      ∃ d ∈ newDocs [] t.docs, ∃ guid data, .issue (.putData guid data) ∈ es ∧
        d.url? = some (photoName guid) ∧
        t.objects (imageUploadRef (photoName guid)) = some data := by
  intro es
  have h : ((machine Unit Unit Platform.discrete.distance).run empty es).map
      (fun t => t.docs.map Document.url?) = some [some "image_A-2.jpg"] := by decide +kernel
  obtain ⟨t, ht, hdocs⟩ := Option.map_eq_some_iff.mp h
  have hphoto := (document_photo ⟨rfl, rfl, rfl, rfl⟩ rfl ht).1
  obtain ⟨d, hd⟩ : ∃ d, d ∈ t.docs := by
    cases hl : t.docs with
    | nil => simp [hl] at hdocs
    | cons d l => exact ⟨d, List.mem_cons_self⟩
  have hnew : d ∈ newDocs [] t.docs := List.mem_filter.mpr ⟨hd, by simp⟩
  obtain ⟨guid, data, hissue, hurl, hobj, -⟩ := hphoto d hnew
  exact ⟨t, ht, hdocs, d, hnew, guid, data, hissue, hurl, hobj⟩

end Runs

end Remote

end SnapYak
