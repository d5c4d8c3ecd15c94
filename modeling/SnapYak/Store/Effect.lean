import SnapYak.Store.Remote

/-!
# What a signal can do

The transitions of the back end are listed once, as a relation with one constructor for each way a
signal can act (`Remote.Effect`). Every invariant is derived from the list
(`Remote.effect_of_signal`), so that no later proof unfolds `Remote.signal`.

The identity of a document (its identifier and the fields written at the upload) survives every
signal; `Preserved` is this relation between two collections.

## Main definitions

* `Remote.Effect` : the ways a signal can act.
* `Preserved` : every document of a collection is there in a later one, with the same identity.

## Main results

* `Remote.effect_of_signal` : there are no other ways.
* `Remote.Effect.docs_cases` : what a signal can do to the collection.
-/

namespace SnapYak

/-- The element at a position, and the others. -/
theorem perm_cons_eraseIdx {α : Type*} {l : List α} {n : ℕ} {a : α} (h : l[n]? = some a) :
    l.Perm (a :: l.eraseIdx n) := by
  obtain ⟨hn, rfl⟩ := List.getElem?_eq_some_iff.mp h
  exact (List.getElem_cons_eraseIdx_perm hn).symm

/-- An element replaced by one with the same image under a map. -/
theorem map_set_eq_map {α β : Type*} {f : α → β} {l : List α} {n : ℕ} {a b : α} (h : l[n]? = some a)
    (hf : f b = f a) : (l.set n b).map f = l.map f := by
  obtain ⟨hn, rfl⟩ := List.getElem?_eq_some_iff.mp h
  rw [List.map_set, hf, ← List.getElem_map f (h := by simpa using hn), List.set_getElem_self]

namespace Remote

variable {κ τ D : Type}

/-- Storing a photo keeps the names. -/
theorem pendingNames_store {s : Remote κ τ D} {objects : StorageReference → Option Data} {n : ℕ}
    {p : Put} (hp : s.puts[n]? = some p) :
    pendingNames { s with objects := objects, puts := s.puts.set n { p with isStored := true } } =
      s.pendingNames :=
  congrArg (· ++ s.adds.map Yak.imageUrl) (map_set_eq_map hp rfl)

/-- A snapshot that arrives keeps the calls. -/
theorem filterMap_call?_set {reads : List (Read κ τ D)} {n : ℕ} {r : Read κ τ D}
    (hr : reads[n]? = some r) (snapshot : Option (List Document)) :
    (reads.set n ⟨r.callback, snapshot⟩).filterMap Read.call? = reads.filterMap Read.call? := by
  -- The call of a read is that of its callback.
  have hcall (l : List (Read κ τ D)) :
      l.filterMap Read.call? = (l.map Read.callback).filterMap Callback.call? := by
    rw [List.filterMap_map]
    rfl
  have hset : (reads.set n ⟨r.callback, snapshot⟩).map Read.callback = reads.map Read.callback :=
    map_set_eq_map hr rfl
  rw [hcall, hcall, hset]

/-- In a completion, the name moves from the photos to the documents. -/
theorem pendingNames_complete {s : Remote κ τ D} {n : ℕ} {p : Put} {loc : GeoPoint} {date : Date}
    (hp : s.puts[n]? = some p) :
    (pendingNames { s with
      puts := s.puts.eraseIdx n, adds := s.adds ++ [newYak p.fileName loc date] }).Perm
      s.pendingNames := by
  have hperm := (perm_cons_eraseIdx hp).map Put.fileName
  simp only [pendingNames, List.map_append, List.map_cons, List.map_nil, newYak]
  rw [← List.append_assoc]
  refine (List.perm_append_singleton _ _).trans ?_
  rw [← List.cons_append]
  exact hperm.symm.append_right _

variable [LE D] [DecidableLE D]

/-- The ways a signal can act on a back end, with what the callback does on the device. -/
inductive Effect (distance : GeoPoint → GeoPoint → D) (s : Remote κ τ D) :
    Signal → Remote κ τ D → Outcome κ → Prop
  | snapshot {n : ℕ} {callback : Callback κ τ D} (hread : s.reads[n]? = some ⟨callback, none⟩) :
      Effect distance s (.snapshot n)
        { s with reads := s.reads.set n ⟨callback, some s.docs⟩ } .nothing
  | fetched {n : ℕ} {loc : GeoPoint} {radius : D} {k : κ} {docs : List Document} {yaks : List Yak}
      (hread : s.reads[n]? = some ⟨.fetchYaks loc radius k, some docs⟩)
      (hyaks : fetchYaks distance loc radius docs = some yaks) :
      Effect distance s (.deliver n) { s with reads := s.reads.eraseIdx n } (.completion k yaks)
  | trapped {n : ℕ} {loc : GeoPoint} {radius : D} {k : κ} {docs : List Document}
      (hread : s.reads[n]? = some ⟨.fetchYaks loc radius k, some docs⟩)
      (htrap : fetchYaks distance loc radius docs = none) :
      Effect distance s (.deliver n) { s with reads := s.reads.eraseIdx n } .trap
  | found {n : ℕ} {f : Field} {t : Yak} {c : τ} {docs : List Document} {id : ℕ}
      (hread : s.reads[n]? = some ⟨.update f t c, some docs⟩) (hid : firstMatch t docs = some id) :
      Effect distance s (.deliver n)
        { s with reads := s.reads.eraseIdx n, writes := s.writes ++ [⟨id, f, t, c⟩] } .nothing
  | missed {n : ℕ} {f : Field} {t : Yak} {c : τ} {docs : List Document}
      (hread : s.reads[n]? = some ⟨.update f t c, some docs⟩) (hnone : firstMatch t docs = none) :
      Effect distance s (.deliver n) { s with reads := s.reads.eraseIdx n } .nothing
  | fail {n : ℕ} {read : Read κ τ D} (hread : s.reads[n]? = some read) :
      Effect distance s (.fail n) { s with reads := s.reads.eraseIdx n } .nothing
  | apply {n : ℕ} {w : Write τ} (hwrite : s.writes[n]? = some w) :
      Effect distance s (.apply n)
        { s with docs := updateData s.docs w.documentID (w.field.payload w.targetYak),
                 writes := s.writes.eraseIdx n } .nothing
  | reject {n : ℕ} {w : Write τ} (hwrite : s.writes[n]? = some w) :
      Effect distance s (.reject n) { s with writes := s.writes.eraseIdx n } .nothing
  | store {n : ℕ} {put : Put} (hput : s.puts[n]? = some put) :
      Effect distance s (.store n)
        { s with objects := Function.update s.objects (imageUploadRef put.fileName) (some put.data),
                 puts := s.puts.set n { put with isStored := true } } .nothing
  | complete {n : ℕ} {put : Put} {loc : GeoPoint} {date : Date} (hput : s.puts[n]? = some put)
      (hstored : put.isStored = true) :
      Effect distance s (.complete n loc date)
        { s with puts := s.puts.eraseIdx n, adds := s.adds ++ [newYak put.fileName loc date] }
        .nothing
  | failPut {n : ℕ} {put : Put} (hput : s.puts[n]? = some put) :
      Effect distance s (.failPut n) { s with puts := s.puts.eraseIdx n } .nothing
  | create {n id : ℕ} {y : Yak} (hadd : s.adds[n]? = some y)
      (hid : id ∉ s.docs.map Document.documentID) :
      Effect distance s (.create n id)
        { s with docs := addDocument s.docs id y.dictionary, adds := s.adds.eraseIdx n } .nothing
  | failCreate {n : ℕ} {y : Yak} (hadd : s.adds[n]? = some y) :
      Effect distance s (.failCreate n) { s with adds := s.adds.eraseIdx n } .nothing

variable {distance : GeoPoint → GeoPoint → D} {s t : Remote κ τ D} {o : Outcome κ}

/-- A callback that runs is that of a fetch or of an update, and each succeeds or not. -/
theorem effect_of_deliver {n : ℕ} {docs : List Document} {cb : Callback κ τ D}
    (hread : s.reads[n]? = some ⟨cb, some docs⟩)
    (h : callback distance { s with reads := s.reads.eraseIdx n } docs cb = (t, o)) :
    Effect distance s (.deliver n) t o := by
  cases cb with
  | fetchYaks loc radius k =>
    cases hy : fetchYaks distance loc radius docs with
    | none =>
      simp only [callback, hy, Prod.mk.injEq] at h
      obtain ⟨rfl, rfl⟩ := h
      exact .trapped hread hy
    | some yaks =>
      simp only [callback, hy, Prod.mk.injEq] at h
      obtain ⟨rfl, rfl⟩ := h
      exact .fetched hread hy
  | update f target c =>
    cases hid : firstMatch target docs with
    | none =>
      simp only [callback, hid, Prod.mk.injEq] at h
      obtain ⟨rfl, rfl⟩ := h
      exact .missed hread hid
    | some id =>
      simp only [callback, hid, Prod.mk.injEq] at h
      obtain ⟨rfl, rfl⟩ := h
      exact .found hread hid

/-- Every transition is one of the list. -/
theorem effect_of_signal {g : Signal} (h : s.signal distance g = some (t, o)) :
    Effect distance s g t o := by
  cases g with
  | snapshot n =>
    simp only [signal, Option.bind_eq_bind, Option.bind_eq_some_iff] at h
    obtain ⟨⟨cb, snap⟩, hread, h⟩ := h
    cases snap with
    | none =>
      simp only [Option.isSome_none, Bool.false_eq_true, ↓reduceIte, Option.some.injEq,
        Prod.mk.injEq] at h
      obtain ⟨rfl, rfl⟩ := h
      exact .snapshot hread
    | some docs => simp at h
  | deliver n =>
    simp only [signal, Option.bind_eq_bind, Option.bind_eq_some_iff] at h
    obtain ⟨⟨cb, snap⟩, hread, docs, rfl, h⟩ := h
    exact effect_of_deliver hread (Option.some.inj h)
  | complete n loc date =>
    simp only [signal, Option.bind_eq_bind, Option.bind_eq_some_iff] at h
    obtain ⟨put, hput, h⟩ := h
    split_ifs at h with hstored
    simp only [Option.some.injEq, Prod.mk.injEq] at h
    obtain ⟨rfl, rfl⟩ := h
    exact .complete hput hstored.1
  | create n id =>
    simp only [signal, Option.bind_eq_bind, Option.bind_eq_some_iff] at h
    obtain ⟨y, hadd, h⟩ := h
    split_ifs at h with hid
    simp only [Option.some.injEq, Prod.mk.injEq] at h
    obtain ⟨rfl, rfl⟩ := h
    exact .create hadd hid
  | fail n | apply n | reject n | store n | failPut n | failCreate n =>
    simp only [signal, Option.bind_eq_bind, Option.bind_eq_some_iff, Option.some.injEq,
      Prod.mk.injEq] at h
    obtain ⟨_, hmem, rfl, rfl⟩ := h
    constructor
    exact hmem

/-- The collection after a signal: as before, one document overwritten, or one added. -/
theorem Effect.docs_cases {g : Signal} (h : Effect distance s g t o) :
    t.docs = s.docs ∨
    (∃ n w, g = .apply n ∧ s.writes[n]? = some w ∧
      t.docs = updateData s.docs w.documentID (w.field.payload w.targetYak)) ∨
    (∃ n id y, g = .create n id ∧ s.adds[n]? = some y ∧ id ∉ s.docs.map Document.documentID ∧
      t.docs = addDocument s.docs id y.dictionary) := by
  cases h with
  | apply hwrite => exact Or.inr (Or.inl ⟨_, _, rfl, hwrite, rfl⟩)
  | create hadd hid => exact Or.inr (Or.inr ⟨_, _, _, rfl, hadd, hid, rfl⟩)
  | _ => exact Or.inl rfl

/-- The reads after a signal were there before it, or have just got their snapshot. -/
theorem Effect.reads_cases {g : Signal} (h : Effect distance s g t o) {r : Read κ τ D}
    (hr : r ∈ t.reads) :
    r ∈ s.reads ∨ ∃ r₀ ∈ s.reads, r = { r₀ with rawSnapshot := some s.docs } := by
  cases h with
  | snapshot hread =>
    rcases List.mem_or_eq_of_mem_set hr with hr | rfl
    · exact Or.inl hr
    · exact Or.inr ⟨_, List.mem_of_getElem? hread, rfl⟩
  | fetched _ _ | trapped _ _ | found _ _ | missed _ _ | fail _ =>
    exact Or.inl (List.mem_of_mem_eraseIdx hr)
  | _ => exact Or.inl hr

/-- The documents to be created after a signal were so before it, or are those of a new yak. -/
theorem Effect.adds_cases {g : Signal} (h : Effect distance s g t o) {y : Yak} (hy : y ∈ t.adds) :
    y ∈ s.adds ∨ ∃ fileName loc date, y = newYak fileName loc date := by
  cases h with
  | complete hput _ =>
    rcases List.mem_append.mp hy with hy | hy
    · exact Or.inl hy
    · exact Or.inr ⟨_, _, _, List.mem_singleton.mp hy⟩
  | create _ _ | failCreate _ => exact Or.inl (List.mem_of_mem_eraseIdx hy)
  | _ => exact Or.inl hy

end Remote

/-! ### Identities are preserved -/

/-- Every document of `docs` is in `docs'`, with the same identifier and identity. -/
def Preserved (docs docs' : List Document) : Prop :=
  ∀ d ∈ docs, ∃ d' ∈ docs', d'.documentID = d.documentID ∧ d'.identity? = d.identity?

namespace Preserved

variable {docs docs' docs'' : List Document}

theorem refl (docs : List Document) : Preserved docs docs := fun d hd => ⟨d, hd, rfl, rfl⟩

theorem trans (h : Preserved docs docs') (h' : Preserved docs' docs'') : Preserved docs docs'' := by
  intro d hd
  obtain ⟨d', hd', hid, hi⟩ := h d hd
  obtain ⟨d'', hd'', hid', hi'⟩ := h' d' hd'
  exact ⟨d'', hd'', hid'.trans hid, hi'.trans hi⟩

theorem updateData (hw : WellFormed docs) (f : Field) (t : Yak) (id : ℕ) :
    Preserved docs (updateData docs id (f.payload t)) := by
  intro d hd
  refine ⟨_, mem_updateData_of_mem f t hd id, by split_ifs <;> rfl, ?_⟩
  rw [Document.identity?, yak?_update f t (hw.decodes d hd), Document.identity?]
  split_ifs
  · rw [Option.map_map]
    exact congrArg (fun g => d.yak?.map g) (funext fun y => f.identity_write t y)
  · rfl

theorem addDocument (id : ℕ) (data : Dictionary) :
    Preserved docs (addDocument docs id data) := fun d hd =>
  ⟨d, mem_addDocument.mpr (Or.inr hd), rfl, rfl⟩

/-- A yak that is stored stays stored. -/
theorem isSome_stored (h : Preserved docs docs') {url : String} (hs : (stored docs url).isSome) :
    (stored docs' url).isSome := by
  obtain ⟨d, hd, hurl⟩ := isSome_stored_iff.mp hs
  obtain ⟨d', hd', -, hi⟩ := h d hd
  exact isSome_stored_iff.mpr ⟨d', hd', (Document.url?_eq_of_identity?_eq hi).trans hurl⟩

/-- The documents of a snapshot of a well-formed collection decode. -/
theorem decodes (h : Preserved docs docs') (hw : WellFormed docs') {d : Document} (hd : d ∈ docs) :
    d.yak?.isSome := by
  obtain ⟨d', hd', -, hi⟩ := h d hd
  have := hw.decodes d' hd'
  rw [← Option.isSome_map (f := Yak.identity)] at this ⊢
  rwa [show d.yak?.map Yak.identity = d'.yak?.map Yak.identity from hi.symm]

end Preserved

end SnapYak
