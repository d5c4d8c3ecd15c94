import Mathlib.Algebra.Order.Group.Multiset
import SnapYak.Store.Effect

/-!
# Integrity of the collection

Uploads, fetches, votes and replies of any number of devices act on the collection in any order,
with callbacks delayed arbitrarily or failing. The invariant that survives has three parts: the
collection is well-formed; what an outstanding call knows of it (a snapshot, the identifier an
update was resolved to) is still true of the identities of the documents; and the names of photos
that are on their way are fresh and pairwise distinct.

An update is resolved by scanning a snapshot that may be old, but identities are never written, so
the identifier it was resolved to still belongs to the target's `image_url` when the write lands.

## Main definitions

* `Remote.Integrity` : the invariant.
* `Remote.OverwritesOnly` : what one step may change in a document.

## Main results

* `Remote.Integrity.step` : every call and every signal preserves the invariant.
* `Remote.landed_add_outstanding_le` : an update lands at most once.
* `Remote.collection_integrity` : the collection in every run from an empty back end.
-/

namespace SnapYak

theorem nodup_of_subperm {α : Type*} {l l' : List α} (h : l.Subperm l') (h' : l'.Nodup) :
    l.Nodup := by
  obtain ⟨m, hm, hsub⟩ := h
  exact hm.nodup_iff.mp (hsub.nodup h')

namespace Remote

variable {κ τ D : Type}

/-! ### The invariant -/

/-- The invariant of a back end. -/
structure Integrity (s : Remote κ τ D) : Prop where
  wellFormed : WellFormed s.docs
  /-- A snapshot knows the identities of documents that are still there. -/
  snapshots : ∀ r ∈ s.reads, ∀ docs, r.rawSnapshot = some docs → Preserved docs s.docs
  /-- An update was resolved to the document with its target's `image_url`. -/
  writes : ∀ w ∈ s.writes, ∃ d ∈ s.docs, d.documentID = w.documentID ∧
    d.url? = some w.targetYak.imageUrl
  nodup_pending : s.pendingNames.Nodup
  pending_fresh : ∀ url ∈ s.pendingNames, stored s.docs url = none
  pending_uploaded : ∀ url ∈ s.pendingNames, url ∈ s.uploads.map Prod.fst
  stored_uploaded : ∀ url, (stored s.docs url).isSome → url ∈ s.uploads.map Prod.fst

theorem integrity_empty : Integrity (empty : Remote κ τ D) where
  wellFormed := wellFormed_nil
  snapshots := by simp [empty]
  writes := by simp [empty]
  nodup_pending := List.nodup_nil
  pending_fresh := by simp [pendingNames, empty]
  pending_uploaded := by simp [pendingNames, empty]
  stored_uploaded := by simp [empty, stored]

namespace Integrity

variable {s t : Remote κ τ D}

/-- Fewer outstanding calls: the collection and the names are as before. -/
theorem mono (h : Integrity s) (hdocs : t.docs = s.docs) (huploads : t.uploads = s.uploads)
    (hreads : ∀ r ∈ t.reads, r ∈ s.reads ∨ ∀ docs, r.rawSnapshot = some docs → docs = s.docs)
    (hwrites : ∀ w ∈ t.writes, w ∈ s.writes)
    (hnames : t.pendingNames.Subperm s.pendingNames) : Integrity t where
  wellFormed := hdocs ▸ h.wellFormed
  snapshots r hr docs hd := by
    rw [hdocs]
    rcases hreads r hr with hr | hr
    · exact h.snapshots r hr docs hd
    · exact hr docs hd ▸ .refl _
  writes w hw := hdocs ▸ h.writes w (hwrites w hw)
  nodup_pending := nodup_of_subperm hnames h.nodup_pending
  pending_fresh url hu := hdocs ▸ h.pending_fresh url (hnames.subset hu)
  pending_uploaded url hu := huploads ▸ h.pending_uploaded url (hnames.subset hu)
  stored_uploaded := hdocs ▸ huploads ▸ h.stored_uploaded

/-- Every call of the app preserves the invariant. -/
theorem issue (h : Integrity s) {r : Request κ τ D} (ht : s.issue r = some t) : Integrity t := by
  cases r with
  | getDocuments cb =>
    obtain rfl : { s with reads := s.reads ++ [⟨cb, none⟩] } = t := Option.some.inj ht
    refine h.mono rfl rfl (fun r hr => ?_) (fun _ => id) (List.Subperm.refl _)
    rcases List.mem_append.mp hr with hr | hr
    · exact Or.inl hr
    · exact Or.inr fun docs hd => by simp [List.mem_singleton.mp hr] at hd
  | putData guid data =>
    simp only [Remote.issue] at ht
    split_ifs at ht with hnew
    obtain rfl := Option.some.inj ht
    -- The new name comes in the middle of the pending ones.
    have hperm : (pendingNames { s with
        puts := s.puts ++ [⟨photoName guid, data, false⟩]
        uploads := s.uploads ++ [(photoName guid, data)] }).Perm
        (photoName guid :: s.pendingNames) := by
      simp only [pendingNames, List.map_append, List.map_cons, List.map_nil, List.append_assoc]
      exact List.perm_middle
    refine ⟨h.wellFormed, h.snapshots, h.writes, ?_, fun url hu => ?_, fun url hu => ?_,
      fun url hu => ?_⟩
    · exact hperm.nodup_iff.mpr (List.nodup_cons.mpr
        ⟨fun hu => hnew (h.pending_uploaded _ hu), h.nodup_pending⟩)
    · rcases List.mem_cons.mp (hperm.subset hu) with rfl | hu
      · by_contra hs
        exact hnew (h.stored_uploaded _ (Option.isSome_iff_ne_none.mpr hs))
      · exact h.pending_fresh url hu
    · rw [List.map_append]
      rcases List.mem_cons.mp (hperm.subset hu) with rfl | hu
      · exact List.mem_append_right _ (by simp)
      · exact List.mem_append_left _ (h.pending_uploaded url hu)
    · rw [List.map_append]
      exact List.mem_append_left _ (h.stored_uploaded url hu)

/-- The document that an outstanding write is about to overwrite. -/
theorem exists_target (h : Integrity s) {n : ℕ} {w : Write τ} (hw : s.writes[n]? = some w) :
    ∃ d ∈ s.docs, d.documentID = w.documentID ∧ d.url? = some w.targetYak.imageUrl :=
  h.writes w (List.mem_of_getElem? hw)

/-- **A write lands.** The yak stored under the target's `image_url` has the field overwritten, and
no other yak changes. -/
theorem stored_apply (h : Integrity s) {n : ℕ} {w : Write τ} (hw : s.writes[n]? = some w)
    (url : String) :
    stored (updateData s.docs w.documentID (w.field.payload w.targetYak)) url =
      if url = w.targetYak.imageUrl then (stored s.docs url).map (w.field.write w.targetYak)
      else stored s.docs url := by
  obtain ⟨d, hd, hid, hurl⟩ := h.exists_target hw
  rw [← hid]
  exact stored_updateData w.field w.targetYak h.wellFormed hd hurl url

theorem isSome_stored_apply (h : Integrity s) {n : ℕ} {w : Write τ} (hw : s.writes[n]? = some w)
    (url : String) :
    (stored (updateData s.docs w.documentID (w.field.payload w.targetYak)) url).isSome =
      (stored s.docs url).isSome := by
  rw [h.stored_apply hw]
  split_ifs
  · exact Option.isSome_map ..
  · rfl

/-- The yak about to be written as a new document is not stored yet, and is named once. -/
theorem add_fresh (h : Integrity s) {n : ℕ} {y : Yak} (hadd : s.adds[n]? = some y) :
    stored s.docs y.imageUrl = none ∧
      y.imageUrl ∉ s.puts.map Put.fileName ++ (s.adds.eraseIdx n).map Yak.imageUrl := by
  have hperm : s.pendingNames.Perm
      (y.imageUrl :: (s.puts.map Put.fileName ++ (s.adds.eraseIdx n).map Yak.imageUrl)) := by
    refine List.Perm.trans ?_ List.perm_middle
    exact List.Perm.append_left _ ((perm_cons_eraseIdx hadd).map Yak.imageUrl)
  refine ⟨h.pending_fresh _ (hperm.symm.subset List.mem_cons_self), ?_⟩
  exact (List.nodup_cons.mp (hperm.nodup_iff.mp h.nodup_pending)).1

/-- **A document is created.** The new yak is stored, and no other changes. -/
theorem stored_create (h : Integrity s) {n id : ℕ} {y : Yak} (hadd : s.adds[n]? = some y)
    (hid : id ∉ s.docs.map Document.documentID) (url : String) :
    stored (addDocument s.docs id y.dictionary) url =
      if url = y.imageUrl then some y.rounded else stored s.docs url :=
  stored_addDocument h.wellFormed (fun d hd he => hid (List.mem_map.mpr ⟨d, hd, he⟩))
    (h.add_fresh hadd).1 url

/-- What the outstanding calls know of a collection is true of a later one. -/
theorem carry (h : Integrity s) (hp : Preserved s.docs t.docs) (hreads : t.reads = s.reads)
    (hwrites : ∀ w ∈ t.writes, w ∈ s.writes) :
    (∀ r ∈ t.reads, ∀ docs, r.rawSnapshot = some docs → Preserved docs t.docs) ∧
    ∀ w ∈ t.writes, ∃ d ∈ t.docs, d.documentID = w.documentID ∧
      d.url? = some w.targetYak.imageUrl := by
  refine ⟨fun r hr docs hd => (h.snapshots r (hreads ▸ hr) docs hd).trans hp, fun w hw => ?_⟩
  obtain ⟨d, hd, hid, hurl⟩ := h.writes w (hwrites w hw)
  obtain ⟨d', hd', hid', hi⟩ := hp d hd
  exact ⟨d', hd', hid'.trans hid, (Document.url?_eq_of_identity?_eq hi).trans hurl⟩

variable [LE D] [DecidableLE D] {distance : GeoPoint → GeoPoint → D}

/-- The collection after a signal is well-formed and has the documents of the one before it. -/
theorem docs_signal (h : Integrity s) {g : Signal} {o : Outcome κ} (he : Effect distance s g t o) :
    WellFormed t.docs ∧ Preserved s.docs t.docs := by
  rcases he.docs_cases with hd | ⟨n, w, -, hw, hd⟩ | ⟨n, id, y, -, hadd, hid, hd⟩
  · rw [hd]
    exact ⟨h.wellFormed, .refl _⟩
  · rw [hd]
    exact ⟨h.wellFormed.updateData _ _ _, .updateData h.wellFormed _ _ _⟩
  · rw [hd]
    exact ⟨h.wellFormed.addDocument (fun d hd he => hid (List.mem_map.mpr ⟨d, hd, he⟩))
      (h.add_fresh hadd).1, .addDocument id _⟩

/-- Every signal preserves the invariant. -/
theorem signal (h : Integrity s) {g : Signal} {o : Outcome κ} (he : Effect distance s g t o) :
    Integrity t := by
  have hdocs := h.docs_signal he
  have herase {n : ℕ} : ∀ r ∈ s.reads.eraseIdx n, r ∈ s.reads ∨
      ∀ docs, r.rawSnapshot = some docs → docs = s.docs := fun r hr =>
    Or.inl (List.mem_of_mem_eraseIdx hr)
  cases he with
  | snapshot hread =>
    refine h.mono rfl rfl (fun r hr => ?_) (fun _ => id) (List.Subperm.refl _)
    rcases List.mem_or_eq_of_mem_set hr with hr | rfl
    · exact Or.inl hr
    · exact Or.inr fun docs hd => (Option.some.inj hd).symm
  | fetched hread hyaks => exact h.mono rfl rfl herase (fun _ => id) (List.Subperm.refl _)
  | trapped hread htrap => exact h.mono rfl rfl herase (fun _ => id) (List.Subperm.refl _)
  | missed hread hnone => exact h.mono rfl rfl herase (fun _ => id) (List.Subperm.refl _)
  | fail hread => exact h.mono rfl rfl herase (fun _ => id) (List.Subperm.refl _)
  | @found n f target c docs documentID hread hid =>
    have hbase : Integrity { s with reads := s.reads.eraseIdx n } :=
      h.mono rfl rfl herase (fun _ => id) (List.Subperm.refl _)
    refine { hbase with writes := fun w hw => ?_ }
    rcases List.mem_append.mp hw with hw | hw
    · exact h.writes w hw
    -- The document was found in a snapshot; the one with its identifier has its `image_url`.
    · obtain ⟨d, hd, hdid, hurl⟩ := firstMatch_eq_some hid
      obtain ⟨d', hd', hid', hi⟩ := h.snapshots _ (List.mem_of_getElem? hread) docs rfl d hd
      rw [List.mem_singleton.mp hw]
      exact ⟨d', hd', hid'.trans hdid, (Document.url?_eq_of_identity?_eq hi).trans hurl⟩
  | apply hwrite =>
    obtain ⟨hsnap, hw⟩ := h.carry hdocs.2 rfl fun w hw => List.mem_of_mem_eraseIdx hw
    refine ⟨hdocs.1, hsnap, hw, h.nodup_pending, fun url hu => ?_, h.pending_uploaded,
      fun url hu => ?_⟩
    · rw [← Option.not_isSome_iff_eq_none, h.isSome_stored_apply hwrite, h.pending_fresh url hu]
      simp
    · rw [h.isSome_stored_apply hwrite] at hu
      exact h.stored_uploaded url hu
  | reject hwrite =>
    exact h.mono rfl rfl (fun _ => Or.inl) (fun w hw => List.mem_of_mem_eraseIdx hw)
      (List.Subperm.refl _)
  | store hput =>
    exact h.mono rfl rfl (fun _ => Or.inl) (fun _ => id) (by rw [pendingNames_store hput])
  | complete hput hstored =>
    exact h.mono rfl rfl (fun _ => Or.inl) (fun _ => id) (pendingNames_complete hput).subperm
  | failPut hput =>
    exact h.mono rfl rfl (fun _ => Or.inl) (fun _ => id)
      (((List.eraseIdx_sublist ..).map _).append (List.Sublist.refl _)).subperm
  | @create n documentID y hadd hid =>
    obtain ⟨hsnap, hw⟩ := h.carry hdocs.2 rfl fun _ => id
    have hsub : (s.puts.map Put.fileName ++ (s.adds.eraseIdx n).map Yak.imageUrl).Sublist
        s.pendingNames :=
      (List.Sublist.refl _).append ((List.eraseIdx_sublist ..).map _)
    refine ⟨hdocs.1, hsnap, hw, hsub.nodup h.nodup_pending, fun url hu => ?_,
      fun url hu => h.pending_uploaded url (hsub.subset hu), fun url hu => ?_⟩
    · have hne : url ≠ y.imageUrl := fun he => (h.add_fresh hadd).2 (he ▸ hu)
      rw [h.stored_create hadd hid, if_neg hne]
      exact h.pending_fresh url (hsub.subset hu)
    · rw [h.stored_create hadd hid] at hu
      split_ifs at hu with he
      · have hmem : y.imageUrl ∈ s.pendingNames :=
          List.mem_append_right _ (List.mem_map.mpr ⟨y, List.mem_of_getElem? hadd, rfl⟩)
        exact he ▸ h.pending_uploaded _ hmem
      · exact h.stored_uploaded url hu
  | failCreate hadd =>
    exact h.mono rfl rfl (fun _ => Or.inl) (fun _ => id)
      ((List.Sublist.refl _).append ((List.eraseIdx_sublist ..).map _)).subperm

/-- Every step of the back end preserves the invariant. -/
theorem step (h : Integrity s) {e : Event κ τ D} (ht : (machine κ τ distance).step s e = some t) :
    Integrity t := by
  cases e with
  | issue r => exact h.issue ht
  | signal g =>
    obtain ⟨⟨t', o⟩, hsig, rfl⟩ := Option.map_eq_some_iff.mp ht
    exact h.signal (effect_of_signal hsig)

/-- No step changes the identity of a document. -/
theorem preserved_step (h : Integrity s) {e : Event κ τ D}
    (ht : (machine κ τ distance).step s e = some t) : Preserved s.docs t.docs := by
  cases e with
  | issue r =>
    cases r with
    | getDocuments cb =>
      obtain rfl := Option.some.inj ht
      exact .refl _
    | putData guid data =>
      simp only [machine, Remote.issue] at ht
      split_ifs at ht
      obtain rfl := Option.some.inj ht
      exact .refl _
  | signal g =>
    obtain ⟨⟨t', o⟩, hsig, rfl⟩ := Option.map_eq_some_iff.mp ht
    exact (h.docs_signal (effect_of_signal hsig)).2

theorem run (h : Integrity s) {es : List (Event κ τ D)}
    (ht : (machine κ τ distance).run s es = some t) : Integrity t :=
  Machine.run_invariant (fun h hs => Integrity.step h hs) h ht

theorem preserved_run (h : Integrity s) {es : List (Event κ τ D)}
    (ht : (machine κ τ distance).run s es = some t) : Preserved s.docs t.docs :=
  (Machine.run_invariant (I := fun u => Integrity u ∧ Preserved s.docs u.docs)
    (fun hu hs => ⟨hu.1.step hs, hu.2.trans (hu.1.preserved_step hs)⟩) ⟨h, .refl _⟩ ht).2

end Integrity

/-! ### What one call changes -/

/-- The update that a step issues, if any. -/
def Event.calls : Event κ τ D → Multiset (Field × Yak × τ)
  | .issue r => r.call?.toList
  | .signal _ => 0

/-- The write that a step lets land. -/
def applied (s : Remote κ τ D) : Event κ τ D → Option (Write τ)
  | .signal (.apply n) => s.writes[n]?
  | _ => none

/-- The update that a step lets land, if any. -/
def landed (s : Remote κ τ D) (e : Event κ τ D) : Multiset (Field × Yak × τ) :=
  ((s.applied e).map Write.call).toList

/-- The update that a signal loses, if any: a read or a write fails, or no document of the snapshot
has the `image_url` of the target. -/
def lost (s : Remote κ τ D) : Signal → Multiset (Field × Yak × τ)
  | .deliver n => match s.reads[n]? with
    | some ⟨.update f target c, some docs⟩ =>
      if (firstMatch target docs).isNone then {(f, target, c)} else 0
    | _ => 0
  | .fail n => (s.reads[n]?.bind Read.call?).toList
  | .reject n => (s.writes[n]?.map Write.call).toList
  | _ => 0

/-- The updates that are outstanding, before or after their documents have been looked up. -/
def outstanding (s : Remote κ τ D) : Multiset (Field × Yak × τ) :=
  ↑(s.writes.map Write.call ++ s.reads.filterMap Read.call?)

/-- What one step may change in the documents of a collection: at most the one with the `image_url`
of a write's target, and in it only the field of the write. -/
def OverwritesOnly (s : Remote κ τ D) (e : Event κ τ D) (t : Remote κ τ D) : Prop :=
  ∀ d ∈ s.docs, d ∈ t.docs ∨ ∃ w, s.applied e = some w ∧ d.url? = some w.targetYak.imageUrl ∧
    ∃ d' ∈ t.docs, d'.documentID = d.documentID ∧ d'.yak? = d.yak?.map (w.field.write w.targetYak) ∧
      ∀ key, key ≠ w.field.key → d'.data key = d.data key

variable {s t : Remote κ τ D}

/-- The outstanding updates, with the call of one read set apart. -/
theorem outstanding_of_read {n : ℕ} {r : Read κ τ D} (hr : s.reads[n]? = some r) :
    s.outstanding = ↑(r.call?.toList ++
      (s.writes.map Write.call ++ (s.reads.eraseIdx n).filterMap Read.call?)) := by
  refine Multiset.coe_eq_coe.mpr ?_
  have hperm := (perm_cons_eraseIdx hr).filterMap Read.call?
  refine (hperm.append_left _).trans ?_
  cases h : r.call? with
  | none => simp [h]
  | some c =>
    rw [List.filterMap_cons, h]
    exact List.perm_middle

/-- The outstanding updates, with the call of one write set apart. -/
theorem outstanding_of_write {n : ℕ} {w : Write τ} (hw : s.writes[n]? = some w) :
    s.outstanding =
      ↑(w.call :: ((s.writes.eraseIdx n).map Write.call ++ s.reads.filterMap Read.call?)) :=
  Multiset.coe_eq_coe.mpr (((perm_cons_eraseIdx hw).map Write.call).append_right _)

/-- A call of the app is outstanding once it is issued. -/
theorem outstanding_issue {r : Request κ τ D} (ht : s.issue r = some t) :
    t.outstanding = ↑r.call?.toList + s.outstanding := by
  cases r with
  | getDocuments cb =>
    obtain rfl := Option.some.inj ht
    refine Multiset.coe_eq_coe.mpr ?_
    have hread : List.filterMap Read.call? [(⟨cb, none⟩ : Read κ τ D)] = cb.call?.toList := by
      cases h : cb.call? <;> simp [Read.call?, h]
    rw [List.filterMap_append, hread, ← List.append_assoc]
    exact List.perm_append_comm
  | putData guid data =>
    simp only [Remote.issue] at ht
    split_ifs at ht
    obtain rfl := Option.some.inj ht
    exact (zero_add _).symm

section Calls

variable [LE D] [DecidableLE D] {distance : GeoPoint → GeoPoint → D}

theorem Integrity.overwritesOnly (h : Integrity s) {e : Event κ τ D}
    (ht : (machine κ τ distance).step s e = some t) : OverwritesOnly s e t := by
  intro d hd
  cases e with
  | issue r =>
    refine Or.inl ?_
    cases r with
    | getDocuments cb =>
      obtain rfl := Option.some.inj ht
      exact hd
    | putData guid data =>
      simp only [machine, Remote.issue] at ht
      split_ifs at ht
      obtain rfl := Option.some.inj ht
      exact hd
  | signal g =>
    obtain ⟨⟨u, o⟩, hsig, hut⟩ := Option.map_eq_some_iff.mp ht
    obtain rfl : u = t := hut
    rcases (effect_of_signal hsig).docs_cases with
      hdocs | ⟨n, w, rfl, hw, hdocs⟩ | ⟨n, id, y, rfl, hadd, hid, hdocs⟩
    · exact Or.inl (hdocs ▸ hd)
    · by_cases hwd : d.documentID = w.documentID
      · obtain ⟨d₀, hd₀, hid, hurl⟩ := h.exists_target hw
        obtain rfl : d₀ = d := h.wellFormed.eq_of_documentID_eq hd₀ hd (hid.trans hwd.symm)
        have hmem := mem_updateData_of_mem w.field w.targetYak hd w.documentID
        rw [if_pos hwd, ← hdocs] at hmem
        exact Or.inr ⟨w, hw, hurl, _, hmem, rfl,
          yak?_merge_payload _ _ (h.wellFormed.decodes d₀ hd),
          fun key hkey => w.field.merge_payload_of_ne _ _ hkey⟩
      · have hmem := mem_updateData_of_mem w.field w.targetYak hd w.documentID
        rw [if_neg hwd, ← hdocs] at hmem
        exact Or.inl hmem
    · exact Or.inl (hdocs ▸ mem_addDocument.mpr (Or.inr hd))

/-- **Updates are accounted for.** An outstanding update is lost in a signal, lands in it, or is
outstanding afterwards. -/
theorem outstanding_signal {g : Signal} {o : Outcome κ} (he : Effect distance s g t o) :
    s.outstanding = s.lost g + s.landed (.signal g : Event κ τ D) + t.outstanding := by
  cases he with
  | snapshot hr =>
    refine Eq.trans ?_ (zero_add _).symm
    rw [outstanding, outstanding, filterMap_call?_set hr]
  | fetched hr _ =>
    rw [outstanding_of_read hr]
    simp only [lost, hr]
    rfl
  | trapped hr _ =>
    rw [outstanding_of_read hr]
    simp only [lost, hr]
    rfl
  | missed hr hnone =>
    rw [outstanding_of_read hr]
    simp only [lost, hr, hnone, Option.isNone_none, ↓reduceIte]
    rfl
  | found hr hid =>
    -- The call of the read becomes the call of the write.
    rw [outstanding_of_read hr]
    simp only [lost, hr, hid, Option.isNone_some, Bool.false_eq_true, ↓reduceIte]
    refine Eq.trans ?_ (zero_add _).symm
    refine Multiset.coe_eq_coe.mpr ?_
    rw [List.map_append, List.append_assoc]
    refine List.Perm.symm ?_
    exact List.perm_middle
  | fail hr =>
    rw [outstanding_of_read hr]
    simp only [lost, hr]
    refine Eq.trans ?_ (congrArg (· + _) (add_zero _).symm)
    rfl
  | apply hw =>
    rw [outstanding_of_write hw]
    simp only [landed, applied, hw]
    rfl
  | reject hw =>
    rw [outstanding_of_write hw]
    simp only [lost, hw]
    rfl
  | _ => exact (zero_add _).symm

/-- Every update that lands was issued, and none lands twice. -/
theorem landed_add_outstanding_le {e : Event κ τ D}
    (ht : (machine κ τ distance).step s e = some t) :
    s.landed e + t.outstanding ≤ e.calls + s.outstanding := by
  cases e with
  | issue r => exact (zero_add _).trans_le (outstanding_issue ht).le
  | signal g =>
    obtain ⟨⟨u, o⟩, hsig, hut⟩ := Option.map_eq_some_iff.mp ht
    obtain rfl : u = t := hut
    rw [outstanding_signal (effect_of_signal hsig), add_assoc]
    exact (Multiset.le_add_left _ _).trans (Multiset.le_add_left _ _)

/-- **Integrity of the collection.** In every run from an empty back end, with callbacks delayed or
failing in any way: every document decodes and no two have the same `image_url`; later steps keep
the identity of every document; every step changes at most the document that carries the
`image_url` of the target of the update it lets land, and in it only the field of the update; and
each update that was issued lands at most once. -/
theorem collection_integrity {es es' : List (Event κ τ D)}
    (hs : (machine κ τ distance).run empty es = some s)
    (ht : (machine κ τ distance).run s es' = some t) :
    WellFormed s.docs ∧ Preserved s.docs t.docs ∧
      (∀ e u, (machine κ τ distance).step s e = some u → OverwritesOnly s e u) ∧
      (machine κ τ distance).total landed empty es ≤
        (machine κ τ distance).total (fun _ e => e.calls) empty es := by
  have hi := integrity_empty.run hs
  refine ⟨hi.wellFormed, hi.preserved_run ht, fun e u hu => hi.overwritesOnly hu, ?_⟩
  have h := Machine.total_add_le (fun h => landed_add_outstanding_le h) hs
  exact (Multiset.le_add_right _ _).trans (h.trans_eq (add_zero _))

/-- A photo is uploaded, its yak is created, and a vote and a reply that read the same snapshot are
written one after the other. -/
theorem collection_integrity_vote_and_reply :
    let yak := newYak "image_0.jpg" ⟨0, 0⟩ 0
    let upload : List (Event Unit ℕ ℕ) := [
      .issue (.putData (.ofString "0" (by decide)) []), .signal (.store 0),
      .signal (.complete 0 ⟨0, 0⟩ 0), .signal (.create 0 7)]
    let updates : List (Event Unit ℕ ℕ) := [
      .issue (updateYakVote { yak with likes := 1 } 0),
      .issue (updateComments { yak with comments := ["hi"] } 1),
      .signal (.snapshot 0), .signal (.snapshot 1), .signal (.deliver 0), .signal (.deliver 0),
      .signal (.apply 0), .signal (.apply 0)]
    ∃ s t, (machine Unit ℕ Platform.discrete.distance).run empty upload = some s ∧
      (machine Unit ℕ Platform.discrete.distance).run s updates = some t ∧
      stored t.docs "image_0.jpg" = some { yak with likes := 1, comments := ["hi"] } ∧
      WellFormed s.docs ∧ Preserved s.docs t.docs := by
  intro yak upload updates
  have h : (((machine Unit ℕ Platform.discrete.distance).run empty upload).bind fun s =>
      (machine Unit ℕ Platform.discrete.distance).run s updates).bind
        (fun t => stored t.docs "image_0.jpg") =
      some { yak with likes := 1, comments := ["hi"] } := by decide +kernel
  obtain ⟨t, ht, hyak⟩ := Option.bind_eq_some_iff.mp h
  obtain ⟨s, hs, ht⟩ := Option.bind_eq_some_iff.mp ht
  have hi := collection_integrity hs ht
  exact ⟨s, t, hs, ht, hyak, hi.1, hi.2.1⟩

end Calls

end Remote

end SnapYak
