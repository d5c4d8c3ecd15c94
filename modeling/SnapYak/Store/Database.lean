import SnapYak.Store.Firestore

/-!
# The callbacks of the database class

The operations of `Database` (`FirebaseModel.swift`) read the whole collection and work on the
snapshot in a callback. This file has what the callbacks compute; when they run is the subject of
`SnapYak.Store.Remote`.

* `fetchYaks` goes through the snapshot and keeps the yaks within a radius. It casts the location
  of every document before it decodes the document, and the cast is forced: a document without a
  geographic `location` stops the process (`none`).
* `firstMatch` is the loop of `updateYakVote` and `updateComments`: the first document that decodes
  to a yak with the target's `image_url`.

`yaksWithin` says what `fetchYaks` is for: the yaks of the documents that decode, within the radius.
The loop computes it exactly on the snapshots in which the forced cast never fails
(`fetchYaks_eq_yaksWithin_iff`).
-/

namespace SnapYak

variable {D : Type} [LE D] [DecidableLE D]

/-- The loop of `fetchYaks` over the documents, with the result so far; `none` is the trap of the
forced cast. -/
def fetchLoop (distance : GeoPoint → GeoPoint → D) (currentLocation : GeoPoint) (radius : D) :
    List Document → List Yak → Option (List Yak)
  | [], result => some result
  | doc :: docs, result =>
    match doc.data "location" >>= Value.asGeoPoint with
    | none => none
    | some coordinate =>
      if distance coordinate currentLocation ≤ radius then
        match Yak.init? doc.data with
        | some parsedYak => fetchLoop distance currentLocation radius docs (result ++ [parsedYak])
        | none => fetchLoop distance currentLocation radius docs result
      else fetchLoop distance currentLocation radius docs result

/-- `fetchYaks`: the list handed to the completion for a snapshot. -/
def fetchYaks (distance : GeoPoint → GeoPoint → D) (currentLocation : GeoPoint) (radius : D)
    (snapshot : List Document) : Option (List Yak) :=
  fetchLoop distance currentLocation radius snapshot []

/-- The loop of `updateYakVote` and `updateComments`: the identifier of the first document that
decodes to a yak with the target's `image_url`. Strings of Swift are equal when they are canonically
equivalent, and those of Lean when they have the same scalars; the names that the app generates are
ASCII, for which this is the same. -/
def firstMatch (targetYak : Yak) : List Document → Option ℕ
  | [] => none
  | doc :: docs =>
    let yak := Yak.init? doc.data
    if some targetYak.imageUrl = yak.map Yak.imageUrl then some doc.documentID
    else firstMatch targetYak docs

/-- The purpose of `fetchYaks`: the yaks of the documents that decode, in their order, as far as
they are within the radius. -/
def yaksWithin (distance : GeoPoint → GeoPoint → D) (currentLocation : GeoPoint) (radius : D)
    (snapshot : List Document) : List Yak :=
  snapshot.filterMap fun doc => doc.yak?.filter fun yak =>
    decide (distance yak.location currentLocation ≤ radius)

/-! ### What the loops return -/

/-- A document that passes the forced cast contributes to the result what it should. -/
theorem fetchLoop_cons {distance : GeoPoint → GeoPoint → D} {loc : GeoPoint} {radius : D}
    {d : Document} {coordinate : GeoPoint}
    (hcast : (d.data "location" >>= Value.asGeoPoint) = some coordinate) (docs : List Document)
    (result : List Yak) :
    fetchLoop distance loc radius (d :: docs) result =
      fetchLoop distance loc radius docs (result ++ yaksWithin distance loc radius [d]) := by
  -- The cast reads the location that the decoder reads.
  have hloc (y : Yak) (hy : Yak.init? d.data = some y) : y.location = coordinate :=
    Option.some.inj ((Yak.init?_eq_some.mp hy).2.2.1.symm.trans hcast)
  simp only [fetchLoop, hcast, yaksWithin, List.filterMap_cons, List.filterMap_nil, Document.yak?]
  cases hy : Yak.init? d.data with
  | none => simp
  | some y =>
    rw [← hloc y hy]
    by_cases hd : distance y.location loc ≤ radius <;> simp [hd, Option.filter_some]

/-- The loop returns a result exactly when every document passes the forced cast, and then the
result is right. -/
theorem fetchLoop_eq_some_iff {distance : GeoPoint → GeoPoint → D} {loc : GeoPoint} {radius : D}
    {docs : List Document} {result yaks : List Yak} :
    fetchLoop distance loc radius docs result = some yaks ↔
      (∀ d ∈ docs, (d.data "location" >>= Value.asGeoPoint).isSome) ∧
      yaks = result ++ yaksWithin distance loc radius docs := by
  induction docs generalizing result with
  | nil =>
    rw [fetchLoop, yaksWithin, List.filterMap_nil, List.append_nil, Option.some.injEq]
    exact ⟨fun h => ⟨by simp, h.symm⟩, fun h => h.2.symm⟩
  | cons d docs ih =>
    cases hcast : d.data "location" >>= Value.asGeoPoint with
    | none =>
      have htrap : fetchLoop distance loc radius (d :: docs) result = none := by
        simp only [fetchLoop, hcast]
      rw [htrap, List.forall_mem_cons, hcast]
      simp
    | some coordinate =>
      have happend : yaksWithin distance loc radius (d :: docs) =
          yaksWithin distance loc radius [d] ++ yaksWithin distance loc radius docs := by
        simp only [yaksWithin, ← List.filterMap_append, List.singleton_append]
      rw [fetchLoop_cons hcast, ih, List.forall_mem_cons, hcast, happend, List.append_assoc]
      simp

/-- **The exactness of `fetchYaks`.** The snapshot is processed without a trap, and the completion
gets exactly the yaks within the radius, if and only if every document has a geographic
`location`. -/
theorem fetchYaks_eq_yaksWithin_iff (distance : GeoPoint → GeoPoint → D)
    (currentLocation : GeoPoint) (radius : D) (snapshot : List Document) :
    fetchYaks distance currentLocation radius snapshot =
        some (yaksWithin distance currentLocation radius snapshot) ↔
      ∀ doc ∈ snapshot, (doc.data "location" >>= Value.asGeoPoint).isSome := by
  rw [fetchYaks, fetchLoop_eq_some_iff, List.nil_append]
  exact and_iff_left rfl

/-- **One malformed document stops everyone.** A snapshot with a yak at the user's own position and
a document without a `location`: the yak is to be shown, and the process traps. -/
theorem fetchYaks_traps :
    let yak : Yak := ⟨"user", "image_0.jpg", ⟨0, 0⟩, 0, 0, []⟩
    let snapshot : List Document :=
      [⟨0, yak.dictionary.stored⟩, ⟨1, .ofList [("user_id", .string "user")]⟩]
    yaksWithin (fun _ _ => 0) ⟨0, 0⟩ 0 snapshot = [yak] ∧
      fetchYaks (fun _ _ => 0) ⟨0, 0⟩ 0 snapshot = none := by
  decide +kernel

/-- The fetched yaks are yaks of the snapshot. -/
theorem mem_of_mem_fetchLoop {distance : GeoPoint → GeoPoint → D} {loc : GeoPoint} {radius : D}
    {docs : List Document} {result yaks : List Yak} {y : Yak}
    (h : fetchLoop distance loc radius docs result = some yaks) (hy : y ∈ yaks) :
    y ∈ result ∨ ∃ d ∈ docs, d.yak? = some y := by
  induction docs generalizing result with
  | nil =>
    obtain rfl : result = yaks := Option.some.inj h
    exact Or.inl hy
  | cons d docs ih =>
    have hrest {result' : List Yak} (h' : fetchLoop distance loc radius docs result' = some yaks) :
        y ∈ result' ∨ ∃ e ∈ d :: docs, e.yak? = some y := by
      rcases ih h' with hmem | ⟨e, he, hey⟩
      · exact Or.inl hmem
      · exact Or.inr ⟨e, List.mem_cons_of_mem _ he, hey⟩
    simp only [fetchLoop] at h
    split at h
    · exact absurd h (by simp)
    · split_ifs at h
      · cases hd : Yak.init? d.data with
        | none => exact hrest (by simpa only [hd] using h)
        | some z =>
          rcases hrest (by simpa only [hd] using h) with hmem | hmem
          · rcases List.mem_append.mp hmem with hmem | hmem
            · exact Or.inl hmem
            · exact Or.inr ⟨d, List.mem_cons_self, by rw [List.mem_singleton.mp hmem]; exact hd⟩
          · exact Or.inr hmem
      · exact hrest h

theorem mem_of_mem_fetchYaks {distance : GeoPoint → GeoPoint → D} {loc : GeoPoint} {radius : D}
    {docs : List Document} {yaks : List Yak} {y : Yak}
    (h : fetchYaks distance loc radius docs = some yaks) (hy : y ∈ yaks) :
    ∃ d ∈ docs, d.yak? = some y := by
  rcases mem_of_mem_fetchLoop h hy with hmem | hmem
  · exact absurd hmem (by simp)
  · exact hmem

/-- A document that decodes passes the forced cast, so a collection of such documents is read
without a trap. -/
theorem isSome_fetchLoop {distance : GeoPoint → GeoPoint → D} {loc : GeoPoint} {radius : D}
    {docs : List Document} (hdocs : ∀ d ∈ docs, d.yak?.isSome) (result : List Yak) :
    (fetchLoop distance loc radius docs result).isSome := by
  induction docs generalizing result with
  | nil => rfl
  | cons d docs ih =>
    have ih' := ih fun e he => hdocs e (List.mem_cons_of_mem _ he)
    obtain ⟨y, hy⟩ := Option.isSome_iff_exists.mp (hdocs d List.mem_cons_self)
    have hloc := (Yak.init?_eq_some.mp hy).2.2.1
    simp only [fetchLoop, hloc]
    split_ifs
    · rw [show Yak.init? d.data = some y from hy]
      exact ih' _
    · exact ih' _

theorem firstMatch_eq_some {t : Yak} {docs : List Document} {id : ℕ}
    (h : firstMatch t docs = some id) :
    ∃ d ∈ docs, d.documentID = id ∧ d.url? = some t.imageUrl := by
  induction docs with
  | nil => exact absurd h (by simp [firstMatch])
  | cons d docs ih =>
    simp only [firstMatch] at h
    split_ifs at h with hurl
    · exact ⟨d, List.mem_cons_self, Option.some.inj h, hurl.symm⟩
    · obtain ⟨e, he, heq⟩ := ih h
      exact ⟨e, List.mem_cons_of_mem _ he, heq⟩

/-- The loop finds a document when there is one. -/
theorem isSome_firstMatch {t : Yak} {docs : List Document}
    (h : ∃ d ∈ docs, d.url? = some t.imageUrl) : (firstMatch t docs).isSome := by
  induction docs with
  | nil => exact absurd h (by simp)
  | cons d docs ih =>
    simp only [firstMatch]
    split_ifs with hurl
    · rfl
    · obtain ⟨e, he, heq⟩ := h
      rcases List.mem_cons.mp he with rfl | he
      · exact absurd heq.symm hurl
      · exact ih ⟨e, he, heq⟩

end SnapYak
