import Mathlib.Data.List.Sort
import SnapYak.Store.Yak

/-!
# The collection of yaks in Firestore

The collection `Yaks` is the list of its documents in the order of their identifiers, the order in
which a snapshot lists them. Firestore keeps a `Date` as a `Timestamp` and every other value as
written; `updateData` overwrites the named fields of one document at once.

The app writes two fields of a stored yak, `likes` and `comments`, always the whole value of a copy
it holds (`Field`).

## Main definitions

* `Document`, `addDocument`, `updateData` : the collection and its two writes.
* `Field.payload`, `Field.write` : an overwrite of one field, in a document and in a yak.
* `WellFormed` : every document decodes, and no two have the same `image_url`.
* `stored` : the collection read as a partial map from `image_url` to yaks.

## Main results

* `WellFormed.updateData`, `WellFormed.addDocument` : the writes of the app keep a collection
  well-formed.
* `stored_updateData`, `stored_addDocument` : what they do to the map.
-/

namespace SnapYak

/-! ### Values at rest -/

/-- What Firestore keeps of a written value: a date becomes a timestamp. -/
def Value.stored : Value → Value
  | .date d => .timestamp (Timestamp.ofDate d).truncated
  | v => v

/-- A dictionary whose dates can be stored. The conversion of another one raises an exception. -/
def Dictionary.Convertible (d : Dictionary) : Prop :=
  ∀ key date, d key = some (.date date) → (Timestamp.timestampWithDate date).isSome

/-- What Firestore keeps of a written dictionary that it can convert. -/
def Dictionary.stored (d : Dictionary) : Dictionary := fun key => (d key).map Value.stored

/-- The dictionary `d` with the entries of `fields` written over it. -/
def Dictionary.merge (fields d : Dictionary) : Dictionary := fun key =>
  match fields key with
  | some v => some v
  | none => d key

theorem Dictionary.stored_merge_singleton (d : Dictionary) (v : Value) (key key' : String) :
    (Dictionary.ofList [(key, v)]).stored.merge d key' =
      if key' = key then some v.stored else d key' := by
  by_cases hk : key' = key
  · subst hk
    simp [merge, stored, ofList]
  · have hne : (key' == key) = false := beq_eq_false_iff_ne.mpr hk
    simp only [merge, stored, ofList, List.lookup_cons, hne, List.lookup_nil, Option.map_none,
      if_neg hk]

/-- A document of the collection. -/
structure Document where
  documentID : ℕ
  data : Dictionary

namespace Document

/-- The yak that a document decodes to. -/
def yak? (d : Document) : Option Yak := Yak.init? d.data

/-- The `image_url` of the yak that a document decodes to. -/
def url? (d : Document) : Option String := d.yak?.map Yak.imageUrl

/-- The fields that are not written after the upload. -/
def identity? (d : Document) : Option (String × String × GeoPoint × Date) :=
  d.yak?.map Yak.identity

theorem url?_eq_map_identity? (d : Document) : d.url? = d.identity?.map fun p => p.2.1 := by
  rw [url?, identity?, Option.map_map]
  rfl

theorem url?_eq_of_identity?_eq {d d' : Document} (h : d.identity? = d'.identity?) :
    d.url? = d'.url? := by
  rw [url?_eq_map_identity?, url?_eq_map_identity?, h]

end Document

/-- `addDocument(data:)`, `documentID` being the fresh identifier that Firestore draws. -/
def addDocument (docs : List Document) (documentID : ℕ) (data : Dictionary) : List Document :=
  docs.orderedInsert (fun d e => d.documentID ≤ e.documentID) ⟨documentID, data.stored⟩

/-- `document(documentID).updateData(fields)`. -/
def updateData (docs : List Document) (documentID : ℕ) (fields : Dictionary) : List Document :=
  docs.map fun d =>
    if d.documentID = documentID then { d with data := fields.stored.merge d.data } else d

/-! ### The two fields that are overwritten -/

/-- The fields of a stored yak that the app overwrites. -/
inductive Field
  | likes
  | comments
deriving DecidableEq

namespace Field

/-- The dictionary handed to `updateData`: `["likes": targetYak.likes]`, respectively
`["comments": targetYak.comments]`. -/
def payload : Field → Yak → Dictionary
  | likes, targetYak => .ofList [("likes", .int targetYak.likes)]
  | comments, targetYak => .ofList [("comments", .array (targetYak.comments.map .string))]

/-- The key of the field in a document. -/
def key : Field → String
  | likes => "likes"
  | comments => "comments"

/-- The yak `y` with the field of `targetYak` written over its own. -/
def write : Field → Yak → Yak → Yak
  | likes, targetYak, y => { y with likes := targetYak.likes }
  | comments, targetYak, y => { y with comments := targetYak.comments }

@[simp] theorem identity_write (f : Field) (t y : Yak) : (f.write t y).identity = y.identity := by
  cases f <;> rfl

@[simp] theorem imageUrl_write (f : Field) (t y : Yak) : (f.write t y).imageUrl = y.imageUrl := by
  cases f <;> rfl

/-- Writing a payload over a document that decodes writes the field of the decoded yak. -/
theorem init?_merge_payload (f : Field) (t : Yak) {d : Dictionary} {y : Yak}
    (h : Yak.init? d = some y) :
    Yak.init? ((f.payload t).stored.merge d) = some (f.write t y) := by
  rw [Yak.init?_eq_some] at h ⊢
  obtain ⟨hUser, hUrl, hLoc, ⟨s, hTime, hDate⟩, hLikes, hComments⟩ := h
  cases f with
  | likes =>
    refine ⟨?_, ?_, ?_, ⟨s, ?_, hDate⟩, ?_, ?_⟩ <;>
      simp only [payload, write, Dictionary.stored_merge_singleton, String.reduceEq, ↓reduceIte]
    exacts [hUser, hUrl, hLoc, hTime, rfl, hComments]
  | comments =>
    refine ⟨?_, ?_, ?_, ⟨s, ?_, hDate⟩, ?_, ?_⟩ <;>
      simp only [payload, write, Dictionary.stored_merge_singleton, String.reduceEq, ↓reduceIte]
    exacts [hUser, hUrl, hLoc, hTime, hLikes, by
      simp only [Value.stored, Option.bind_eq_bind, Option.bind_some, Value.asStrings_map_string,
        Option.getD_some]]

/-- A payload is written to its own key only. -/
theorem merge_payload_of_ne (f : Field) (t : Yak) (d : Dictionary) {key : String}
    (h : key ≠ f.key) : (f.payload t).stored.merge d key = d key := by
  cases f with
  | likes => exact (Dictionary.stored_merge_singleton ..).trans (if_neg h)
  | comments => exact (Dictionary.stored_merge_singleton ..).trans (if_neg h)

end Field

/-! ### Well-formed collections -/

/-- A collection that the app can read back: every document decodes, and the identifiers as well as
the `image_url`s of the documents are pairwise distinct. -/
structure WellFormed (docs : List Document) : Prop where
  decodes : ∀ d ∈ docs, d.yak?.isSome
  nodup_ids : (docs.map Document.documentID).Nodup
  nodup_urls : (docs.map Document.url?).Nodup

/-- The yak stored under an `image_url`. -/
def stored (docs : List Document) (url : String) : Option Yak :=
  (docs.filterMap Document.yak?).find? fun y => y.imageUrl = url

variable {docs : List Document}

theorem wellFormed_nil : WellFormed [] :=
  ⟨by simp, List.nodup_nil, List.nodup_nil⟩

theorem imageUrl_of_stored {url : String} {y : Yak} (h : stored docs url = some y) :
    y.imageUrl = url := by
  simpa using List.find?_some h

theorem exists_mem_of_stored {url : String} {y : Yak} (h : stored docs url = some y) :
    ∃ d ∈ docs, d.yak? = some y := by
  simpa using List.mem_of_find?_eq_some h

theorem isSome_stored_iff {url : String} :
    (stored docs url).isSome ↔ ∃ d ∈ docs, d.url? = some url := by
  rw [stored, List.find?_isSome]
  simp only [List.mem_filterMap, decide_eq_true_eq, Document.url?, Option.map_eq_some_iff]
  constructor
  · rintro ⟨y, ⟨d, hd, hy⟩, hurl⟩
    exact ⟨d, hd, y, hy, hurl⟩
  · rintro ⟨d, hd, y, hy, hurl⟩
    exact ⟨y, ⟨d, hd, hy⟩, hurl⟩

namespace WellFormed

theorem eq_of_url?_eq (hw : WellFormed docs) {d d' : Document} (hd : d ∈ docs) (hd' : d' ∈ docs)
    (h : d.url? = d'.url?) : d = d' :=
  List.inj_on_of_nodup_map hw.nodup_urls hd hd' h

theorem eq_of_documentID_eq (hw : WellFormed docs) {d d' : Document} (hd : d ∈ docs)
    (hd' : d' ∈ docs) (h : d.documentID = d'.documentID) : d = d' :=
  List.inj_on_of_nodup_map hw.nodup_ids hd hd' h

theorem exists_yak (hw : WellFormed docs) {d : Document} (hd : d ∈ docs) :
    ∃ y, d.yak? = some y :=
  Option.isSome_iff_exists.mp (hw.decodes d hd)

/-- A document is found under its `image_url`. -/
theorem stored_of_mem (hw : WellFormed docs) {d : Document} {y : Yak} (hd : d ∈ docs)
    (hy : d.yak? = some y) : stored docs y.imageUrl = some y := by
  have hurl : d.url? = some y.imageUrl := by rw [Document.url?, hy, Option.map_some]
  obtain ⟨z, hz⟩ := Option.isSome_iff_exists.mp (isSome_stored_iff.mpr ⟨d, hd, hurl⟩)
  obtain ⟨e, he, hez⟩ := exists_mem_of_stored hz
  have : e = d := hw.eq_of_url?_eq he hd (by
    rw [hurl, Document.url?, hez, Option.map_some, imageUrl_of_stored hz])
  rw [hz, ← hez, this, hy]

theorem stored_eq_some_iff (hw : WellFormed docs) {url : String} {y : Yak} :
    stored docs url = some y ↔ (∃ d ∈ docs, d.yak? = some y) ∧ y.imageUrl = url :=
  ⟨fun h => ⟨exists_mem_of_stored h, imageUrl_of_stored h⟩,
    fun ⟨⟨_, hd, hy⟩, hurl⟩ => hurl ▸ hw.stored_of_mem hd hy⟩

end WellFormed

/-! ### Overwriting a field -/

section Update

variable (f : Field) (t : Yak)

/-- What an overwrite does to each document. -/
theorem mem_updateData {id : ℕ} {d' : Document} :
    d' ∈ updateData docs id (f.payload t) ↔ ∃ d ∈ docs, d' =
      if d.documentID = id then { d with data := (f.payload t).stored.merge d.data } else d := by
  simp only [updateData, List.mem_map, eq_comm]

theorem mem_updateData_of_mem {d : Document} (hd : d ∈ docs) (id : ℕ) :
    (if d.documentID = id then { d with data := (f.payload t).stored.merge d.data } else d) ∈
      updateData docs id (f.payload t) :=
  (mem_updateData f t).mpr ⟨d, hd, rfl⟩

theorem yak?_merge_payload {d : Document} (hd : d.yak?.isSome) :
    Document.yak? { d with data := (f.payload t).stored.merge d.data } =
      d.yak?.map (f.write t) := by
  obtain ⟨y, hy⟩ := Option.isSome_iff_exists.mp hd
  rw [hy]
  exact f.init?_merge_payload t hy

/-- The yak of each document after an overwrite. -/
theorem yak?_update {d : Document} (hd : d.yak?.isSome) (id : ℕ) :
    Document.yak?
        (if d.documentID = id then { d with data := (f.payload t).stored.merge d.data } else d) =
      if d.documentID = id then d.yak?.map (f.write t) else d.yak? := by
  split_ifs
  · exact yak?_merge_payload f t hd
  · rfl

theorem map_identity?_updateData (hd : ∀ d ∈ docs, d.yak?.isSome) (id : ℕ) :
    (updateData docs id (f.payload t)).map Document.identity? = docs.map Document.identity? := by
  rw [updateData, List.map_map]
  refine List.map_congr_left fun d hmem => ?_
  simp only [Function.comp_apply, Document.identity?, yak?_update f t (hd d hmem)]
  split_ifs
  · rw [Option.map_map]
    exact congrArg (fun g => d.yak?.map g) (funext fun y => f.identity_write t y)
  · rfl

theorem map_url?_updateData (hd : ∀ d ∈ docs, d.yak?.isSome) (id : ℕ) :
    (updateData docs id (f.payload t)).map Document.url? = docs.map Document.url? := by
  have hmap (l : List Document) :
      l.map Document.url? = (l.map Document.identity?).map fun o => o.map fun p => p.2.1 := by
    rw [List.map_map]
    exact List.map_congr_left fun d _ => d.url?_eq_map_identity?
  rw [hmap, map_identity?_updateData f t hd, ← hmap]

theorem map_documentID_updateData (id : ℕ) :
    (updateData docs id (f.payload t)).map Document.documentID = docs.map Document.documentID := by
  rw [updateData, List.map_map]
  refine List.map_congr_left fun d _ => ?_
  simp only [Function.comp_apply]
  split_ifs <;> rfl

/-- An overwrite keeps a collection well-formed. -/
theorem WellFormed.updateData (hw : WellFormed docs) (id : ℕ) :
    WellFormed (updateData docs id (f.payload t)) where
  decodes d' hd' := by
    obtain ⟨d, hd, rfl⟩ := (mem_updateData f t).mp hd'
    rw [yak?_update f t (hw.decodes d hd)]
    split_ifs
    · rw [Option.isSome_map]
      exact hw.decodes d hd
    · exact hw.decodes d hd
  nodup_ids := by
    rw [map_documentID_updateData]
    exact hw.nodup_ids
  nodup_urls := by
    rw [map_url?_updateData f t hw.decodes]
    exact hw.nodup_urls

/-- **Overwriting a field.** Only the yak of the document is written, and only the field. -/
theorem stored_updateData (hw : WellFormed docs) {d : Document} (hd : d ∈ docs) {url : String}
    (hurl : d.url? = some url) (url' : String) :
    stored (updateData docs d.documentID (f.payload t)) url' =
      if url' = url then (stored docs url').map (f.write t) else stored docs url' := by
  have hw' := hw.updateData f t d.documentID
  obtain ⟨y, hy⟩ := hw.exists_yak hd
  have hyurl : y.imageUrl = url := by simpa [Document.url?, hy] using hurl
  -- Every document after the write comes from one before it, with the same `image_url`.
  have hmem {e : Document} {z : Yak} (he : e ∈ docs) (hz : e.yak? = some z) :
      stored (SnapYak.updateData docs d.documentID (f.payload t)) z.imageUrl =
        some (if e.documentID = d.documentID then f.write t z else z) := by
    have hz' := yak?_update f t (hw.decodes e he) d.documentID
    have he' := mem_updateData_of_mem f t he d.documentID
    rw [hz] at hz'
    split_ifs at hz' ⊢ with h
    · simpa using hw'.stored_of_mem (by simpa only [h, ↓reduceIte] using he') hz'
    · exact hw'.stored_of_mem (by simpa only [h, ↓reduceIte] using he') hz'
  cases h : stored docs url' with
  | none =>
    have hnone : stored (SnapYak.updateData docs d.documentID (f.payload t)) url' = none := by
      by_contra hne
      obtain ⟨e', he', hurl'⟩ := isSome_stored_iff.mp (Option.isSome_iff_ne_none.mpr hne)
      obtain ⟨e, he, rfl⟩ := (mem_updateData f t).mp he'
      obtain ⟨z, hz⟩ := hw.exists_yak he
      have : z.imageUrl = url' := by
        rw [Document.url?, yak?_update f t (hw.decodes e he), hz] at hurl'
        split_ifs at hurl' <;> simpa using hurl'
      rw [← this, hw.stored_of_mem he hz] at h
      exact absurd h (by simp)
    rw [hnone]
    split_ifs <;> rfl
  | some z =>
    obtain ⟨e, he, hz⟩ := exists_mem_of_stored h
    have hzurl := imageUrl_of_stored h
    rw [← hzurl, hmem he hz]
    by_cases hu : z.imageUrl = url
    · have : e = d := hw.eq_of_url?_eq he hd (by rw [hurl, Document.url?, hz, Option.map_some, hu])
      simp [this, hu]
    · have : e.documentID ≠ d.documentID := fun hid =>
        hu (by
          have hzy : z = y := by
            rw [hw.eq_of_documentID_eq he hd hid, hy] at hz
            exact (Option.some.inj hz).symm
          rw [hzy, hyurl])
      simp [this, hu]

end Update

/-! ### Adding a document -/

section Add

variable {y : Yak}

/-- The yak as Firestore gives it back: the time stamp is cut to the stored precision. -/
def Yak.rounded (y : Yak) : Yak :=
  { y with timeStamp := (Timestamp.ofDate y.timeStamp).truncated.dateValue }

/-- What a written yak decodes to. -/
theorem init?_stored_dictionary (y : Yak) : Yak.init? y.dictionary.stored = some y.rounded := by
  rw [Yak.init?_eq_some]
  refine ⟨rfl, rfl, rfl, ⟨_, rfl, rfl⟩, rfl, ?_⟩
  change ((Value.array (y.comments.map .string)).asStrings).getD [] = y.comments
  rw [Value.asStrings_map_string, Option.getD_some]

/-! ### The round trip through the store -/

theorem Dictionary.mem_of_ofList_eq_some {entries : List (String × Value)} {key : String}
    {v : Value} (h : ofList entries key = some v) : (key, v) ∈ entries := by
  obtain ⟨l₁, l₂, rfl, -⟩ := List.lookup_eq_some_iff.mp h
  simp

/-- The only date of a written yak is its time stamp. -/
theorem Yak.convertible_dictionary_iff (y : Yak) :
    y.dictionary.Convertible ↔ (Timestamp.timestampWithDate y.timeStamp).isSome := by
  refine ⟨fun h => h "time_stamp" _ rfl, fun h key date hdate => ?_⟩
  have hmem := Dictionary.mem_of_ofList_eq_some hdate
  simp only [List.mem_cons, Prod.mk.injEq, Value.date.injEq, reduceCtorEq, and_false, false_or,
    List.not_mem_nil, or_false] at hmem
  exact hmem.2 ▸ h

/-- A dictionary as Firestore keeps it: its timestamps are in the range and cut to the microseconds,
and it has no date. -/
def Dictionary.IsStored (d : Dictionary) : Prop :=
  ∀ key, (∀ t, d key = some (.timestamp t) → t.IsValid ∧ t.truncated = t) ∧
    ∀ date, d key ≠ some (.date date)

/-- What Firestore keeps of a written dictionary is as it keeps dictionaries, provided that the
timestamps that the writer took from it are. -/
theorem Dictionary.isStored_stored {d : Dictionary} (hd : d.Convertible)
    (h : ∀ key t, d key = some (.timestamp t) → t.IsValid ∧ t.truncated = t) :
    d.stored.IsStored := by
  intro key
  cases hv : d key with
  | none => simp [stored, hv]
  | some v =>
    cases v with
    | date date =>
      simp only [stored, hv, Option.map_some, Value.stored, Option.some.injEq,
        Value.timestamp.injEq]
      have hvalid := (Timestamp.isValid_ofDate (hd key date hv)).truncated
      exact ⟨fun t ht => ht ▸ ⟨hvalid, Timestamp.truncated_truncated _⟩, by simp⟩
    | timestamp t =>
      simp only [stored, hv, Option.map_some, Value.stored, Option.some.injEq,
        Value.timestamp.injEq]
      exact ⟨fun t' ht => ht ▸ h key t hv, by simp⟩
    | _ => simp [stored, hv, Value.stored]

/-- The timestamp of a document that decodes. -/
theorem exists_timestamp_of_init?_eq_some {d : Dictionary} {y : Yak} (h : Yak.init? d = some y) :
    ∃ t, d "time_stamp" = some (.timestamp t) ∧ t.dateValue = y.timeStamp := by
  obtain ⟨-, -, -, ⟨t, htime, hdate⟩, -, -⟩ := Yak.init?_eq_some.mp h
  obtain ⟨v, hv, hvt⟩ := Option.bind_eq_some_iff.mp htime
  exact ⟨t, by rw [hv, Value.eq_timestamp_of_asTimestamp hvt], hdate⟩

/-- **The codec survives storage**, up to the rounding of dates. A written yak decodes to itself
with its time stamp cut to whole microseconds and read as a double. What a stored document decodes
to, whatever else it holds, comes back with a time stamp that is not later; it comes back unchanged
if its time stamp was not rounded below the stored instant and, between 1901 and 2038, only then. -/
theorem init?_stored_dictionary_twice :
    (∀ y : Yak,
      (y.dictionary.Convertible ↔ -62135596800 ≤ y.timeStamp ∧ y.timeStamp < 253402300800) ∧
      (y.dictionary.Convertible →
        let t := (Timestamp.ofDate y.timeStamp).truncated
        Yak.init? y.dictionary.stored = some { y with timeStamp := t.dateValue } ∧
        t.instant = ⌊y.timeStamp * 10 ^ 6⌋ / 10 ^ 6 ∧
        (-2 ^ 31 ≤ t.seconds → t.seconds < 2 ^ 31 →
          |t.dateValue - t.instant| < 1 / 2000000))) ∧
    ∀ d : Dictionary, d.IsStored → ∀ y t, Yak.init? d = some y →
      d "time_stamp" = some (.timestamp t) → y.dictionary.Convertible →
      (∃ date ≤ y.timeStamp,
        Yak.init? y.dictionary.stored = some { y with timeStamp := date }) ∧
      (t.instant ≤ y.timeStamp → Yak.init? y.dictionary.stored = some y) ∧
      (-2 ^ 31 ≤ t.seconds → t.seconds < 2 ^ 31 →
        Yak.init? y.dictionary.stored = some y → t.instant ≤ y.timeStamp) := by
  refine ⟨fun y => ⟨?_, fun hy => ⟨init?_stored_dictionary y, ?_, fun hlow hhigh => ?_⟩⟩,
    fun d hd y t hy ht hconv => ?_⟩
  · rw [y.convertible_dictionary_iff, Timestamp.isSome_timestampWithDate_iff]
  · exact Timestamp.instant_truncated_ofDate _
  · have hvalid := Timestamp.isValid_ofDate (y.convertible_dictionary_iff.mp hy)
    exact Timestamp.abs_dateValue_sub_instant_lt hvalid.truncated hlow hhigh
  obtain ⟨t', ht', hdate⟩ := exists_timestamp_of_init?_eq_some hy
  obtain rfl : t = t' := by simpa [ht] using ht'
  obtain ⟨hvalid, htrunc⟩ := (hd "time_stamp").1 t ht
  have hdateValid := Timestamp.isValid_ofDate (y.convertible_dictionary_iff.mp hconv)
  rw [← hdate] at hdateValid
  have heq : Yak.init? y.dictionary.stored = some y ↔
      (Timestamp.ofDate t.dateValue).truncated.dateValue = t.dateValue := by
    rw [init?_stored_dictionary, Option.some.injEq, Yak.rounded, hdate]
    exact ⟨congrArg Yak.timeStamp, fun h => by rw [h]⟩
  rw [heq, ← hdate]
  exact ⟨⟨_, Timestamp.dateValue_truncated_le hvalid hdateValid, by
      rw [init?_stored_dictionary, Yak.rounded, hdate]⟩,
    Timestamp.dateValue_truncated_eq hvalid hdateValid htrunc,
    fun hlow hhigh => (Timestamp.dateValue_truncated_eq_iff hvalid hdateValid htrunc hlow hhigh).mp⟩

/-- A document of another writer, with a key of its own and with comments of another type. -/
def foreignDocument (t : Timestamp) : Dictionary := .ofList [
  ("user_id", .string "user"), ("image_url", .string "image_0.jpg"), ("draft", .bool true),
  ("location", .geoPoint ⟨0, 0⟩), ("time_stamp", .timestamp t), ("likes", .double 2),
  ("comments", .string "none")]

/-- The yak that it decodes to. -/
def foreignYak (t : Timestamp) : Yak := ⟨"user", "image_0.jpg", ⟨0, 0⟩, t.dateValue, 2, []⟩

theorem init?_foreignDocument (t : Timestamp) :
    Yak.init? (foreignDocument t) = some (foreignYak t) := rfl

theorem isStored_foreignDocument {t : Timestamp} (h : t.IsValid ∧ t.truncated = t) :
    (foreignDocument t).IsStored := by
  intro key
  constructor
  · intro t' ht'
    have hmem := Dictionary.mem_of_ofList_eq_some ht'
    simp only [List.mem_cons, Prod.mk.injEq, Value.timestamp.injEq, reduceCtorEq, and_false,
      false_or, List.not_mem_nil, or_false] at hmem
    exact hmem.2 ▸ h
  · intro date hdate
    have hmem := Dictionary.mem_of_ofList_eq_some hdate
    simp at hmem

/-- A time stamp with a half of a second, which a double holds. -/
theorem init?_stored_dictionary_half :
    let y := foreignYak ⟨1557100000, 500000000⟩
    Yak.init? y.dictionary.stored = some y := by
  intro y
  have hdate : y.timeStamp = 1557100000 + 1 / 2 := by
    have h := Timestamp.dateValue_eq_of_abs_sub_lt (t := ⟨1557100000, 500000000⟩) (k := 2 ^ 21)
      (by decide) (by norm_num) (by norm_num) (by norm_num)
    norm_num at h ⊢
    exact h
  refine (init?_stored_dictionary_twice.2 _ (isStored_foreignDocument (by decide)) y
    ⟨1557100000, 500000000⟩ (init?_foreignDocument _) rfl ?_).2.1 ?_
  · rw [y.convertible_dictionary_iff, Timestamp.isSome_timestampWithDate_iff, hdate]
    norm_num
  · rw [hdate, Timestamp.instant]
    norm_num

/-- The time stamp of a stored document is rounded to a double below the stored microsecond, and
loses another one when it is written again; what is read then is no whole number of microseconds.
A yak of the year 10000 is not stored. -/
theorem init?_stored_dictionary_not_fixed :
    let d := foreignDocument ⟨1557100000, 123457000⟩
    let y := foreignYak ⟨1557100000, 123457000⟩
    (d.IsStored ∧ Yak.init? d = some y ∧ y.dictionary.Convertible ∧
      Yak.init? y.dictionary.stored ≠ some y ∧
      Yak.init? y.dictionary.stored ≠
        some { y with timeStamp := ⌊y.timeStamp * 10 ^ 6⌋ / 10 ^ 6 }) ∧
    ¬(Yak.dictionary { y with timeStamp := 253402300800 }).Convertible := by
  intro d y
  have hdate : y.timeStamp = 1557100000 + 517816 / 2 ^ 22 := by
    have h := Timestamp.dateValue_eq_of_abs_sub_lt (t := ⟨1557100000, 123457000⟩) (k := 517816)
      (by decide) (by norm_num) (by norm_num) (by norm_num [abs_lt])
    norm_num at h ⊢
    exact h
  have hcut : (Timestamp.ofDate y.timeStamp).truncated = ⟨1557100000, 123456000⟩ := by
    rw [hdate]
    decide +kernel
  have hagain : Yak.init? y.dictionary.stored =
      some { y with timeStamp := 1557100000 + 517812 / 2 ^ 22 } := by
    have h := Timestamp.dateValue_eq_of_abs_sub_lt (t := ⟨1557100000, 123456000⟩) (k := 517812)
      (by decide) (by norm_num) (by norm_num) (by norm_num [abs_lt])
    rw [init?_stored_dictionary, Yak.rounded, hcut, h]
    norm_num
  have hne (date : Date) (h : date ≠ 1557100000 + 517812 / 2 ^ 22) :
      Yak.init? y.dictionary.stored ≠ some { y with timeStamp := date } := by
    rw [hagain]
    exact fun heq => h (congrArg Yak.timeStamp (Option.some.inj heq)).symm
  refine ⟨⟨isStored_foreignDocument (by decide), rfl, ?_, hne y.timeStamp ?_, hne _ ?_⟩, ?_⟩
  · rw [y.convertible_dictionary_iff, Timestamp.isSome_timestampWithDate_iff, hdate]
    norm_num
  · rw [hdate]
    norm_num
  · rw [hdate]
    decide +kernel
  · rw [Yak.convertible_dictionary_iff, Timestamp.isSome_timestampWithDate_iff]
    norm_num

theorem mem_addDocument {id : ℕ} {data : Dictionary} {d : Document} :
    d ∈ addDocument docs id data ↔ d = ⟨id, data.stored⟩ ∨ d ∈ docs :=
  List.mem_orderedInsert _

/-- A document with a fresh identifier and a fresh `image_url` keeps a collection well-formed. -/
theorem WellFormed.addDocument (hw : WellFormed docs) {id : ℕ}
    (hid : ∀ d ∈ docs, d.documentID ≠ id) (hurl : stored docs y.imageUrl = none) :
    WellFormed (addDocument docs id y.dictionary) where
  decodes d hd := by
    rcases mem_addDocument.mp hd with rfl | hd
    · simp [Document.yak?, init?_stored_dictionary]
    · exact hw.decodes d hd
  nodup_ids := by
    rw [SnapYak.addDocument, (List.perm_orderedInsert ..).map _ |>.nodup_iff, List.map_cons,
      List.nodup_cons]
    refine ⟨fun h => ?_, hw.nodup_ids⟩
    obtain ⟨d, hd, h⟩ := List.mem_map.mp h
    exact hid d hd h
  nodup_urls := by
    rw [SnapYak.addDocument, (List.perm_orderedInsert ..).map _ |>.nodup_iff, List.map_cons,
      List.nodup_cons]
    refine ⟨fun h => ?_, hw.nodup_urls⟩
    obtain ⟨d, hd, h⟩ := List.mem_map.mp h
    have : (stored docs y.imageUrl).isSome := isSome_stored_iff.mpr ⟨d, hd, by
      rw [h, Document.url?, Document.yak?, init?_stored_dictionary]
      rfl⟩
    rw [hurl] at this
    exact absurd this (by simp)

/-- **Adding a document.** The new yak is stored under its `image_url`, and nothing else
changes. -/
theorem stored_addDocument (hw : WellFormed docs) {id : ℕ}
    (hid : ∀ d ∈ docs, d.documentID ≠ id) (hurl : stored docs y.imageUrl = none) (url : String) :
    stored (addDocument docs id y.dictionary) url =
      if url = y.imageUrl then some y.rounded else stored docs url := by
  have hw' := hw.addDocument hid hurl
  have hnew : Document.yak? ⟨id, y.dictionary.stored⟩ = some y.rounded := init?_stored_dictionary y
  split_ifs with h
  · rw [h]
    exact hw'.stored_of_mem (mem_addDocument.mpr (Or.inl rfl)) hnew
  · refine Option.ext fun z => ?_
    rw [hw'.stored_eq_some_iff, hw.stored_eq_some_iff]
    refine and_congr_left fun hz => ⟨?_, ?_⟩
    · rintro ⟨d, hd, hdz⟩
      rcases mem_addDocument.mp hd with rfl | hd
      · obtain rfl : y.rounded = z := Option.some.inj (hnew.symm.trans hdz)
        exact absurd hz.symm h
      · exact ⟨d, hd, hdz⟩
    · rintro ⟨d, hd, hdz⟩
      exact ⟨d, mem_addDocument.mpr (Or.inr hd), hdz⟩

end Add

/-! ### Values of a field -/

/-- `value` is a function of the field `f` alone, and `new` is its value at a new yak. -/
structure Field.IsValue {β : Type} (f : Field) (value : Yak → β) (new : β) : Prop where
  write : ∀ f' t y, value (Field.write f' t y) = if f' = f then value t else value y
  rounded : ∀ y : Yak, y.likes = 0 → y.comments = [] → value y.rounded = new

theorem isValue_likes : Field.likes.IsValue Yak.likes 0 where
  write f' t y := by cases f' <;> rfl
  rounded _ hlikes _ := hlikes

theorem isValue_comments : Field.comments.IsValue Yak.comments [] where
  write f' t y := by cases f' <;> rfl
  rounded _ _ hcomments := hcomments

theorem Field.IsValue.comp {β γ : Type} {f : Field} {value : Yak → β} {new : β}
    (h : f.IsValue value new) (φ : β → γ) : f.IsValue (φ ∘ value) (φ new) where
  write f' t y := by simp only [Function.comp_apply, h.write, apply_ite φ]
  rounded y hlikes hcomments := congrArg φ (h.rounded y hlikes hcomments)

/-- The value of a stored yak; that of a yak that is not stored is `new`. -/
def storedValue {β : Type} (value : Yak → β) (new : β) (docs : List Document) (url : String) : β :=
  ((stored docs url).map value).getD new

theorem storedValue_of_stored {β : Type} {value : Yak → β} {new : β} {url : String} {y : Yak}
    (h : stored docs url = some y) : storedValue value new docs url = value y := by
  rw [storedValue, h, Option.map_some, Option.getD_some]

end SnapYak
