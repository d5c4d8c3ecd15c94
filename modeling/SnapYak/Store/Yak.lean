import Mathlib.Data.List.Basic
import SnapYak.Store.Timestamp

/-!
# Yaks and their dictionaries

A yak is stored as a Firestore document, a dictionary of values of any type. `Yak.dictionary`
writes the dictionary and `Yak.init?` reads one, tolerating absent or mistyped comments and
nothing else (`Yak.swift`).

Coordinates are rational numbers, so that nothing about them is rounded. Counts are integers of any
size; `IsInt` are those that an `Int` of the app can hold.

## Main definitions

* `Value`, `Dictionary` : what a document holds, and the casts `as?` from it.
* `Yak`, `Yak.dictionary`, `Yak.init?`.
* `Yak.identity` : the four fields that no operation of the app writes after the upload.

## Main results

* `Yak.init?_eq_some` : the dictionaries that decode, and what they decode to.
-/

namespace SnapYak

/-- A point on the globe, in degrees. -/
structure GeoPoint where
  latitude : ℚ
  longitude : ℚ
deriving DecidableEq

/-- The integers of the type `Int`, of 64 bits. An operation with another result traps. -/
def IsInt (n : ℤ) : Prop := -2 ^ 63 ≤ n ∧ n < 2 ^ 63

instance (n : ℤ) : Decidable (IsInt n) :=
  inferInstanceAs (Decidable (-2 ^ 63 ≤ n ∧ n < 2 ^ 63))

/-! ### Dictionaries -/

/-- A value of a document, of the dynamic type `Any`. Maps, bytes, references and the doubles that
are not finite are left out: no cast of the app succeeds on them. -/
inductive Value
  | null
  | bool (b : Bool)
  | int (n : ℤ)
  | double (x : ℚ)
  | string (s : String)
  | date (d : Date)
  | timestamp (t : Timestamp)
  | geoPoint (p : GeoPoint)
  | array (vs : List Value)

namespace Value

/-- `as? String`. -/
def asString : Value → Option String
  | string s => some s
  | _ => none

/-- `as? GeoPoint`. -/
def asGeoPoint : Value → Option GeoPoint
  | geoPoint p => some p
  | _ => none

/-- `as? Timestamp`. -/
def asTimestamp : Value → Option Timestamp
  | timestamp t => some t
  | _ => none

theorem eq_timestamp_of_asTimestamp {v : Value} {t : Timestamp} (h : v.asTimestamp = some t) :
    v = timestamp t := by
  cases v with
  | timestamp t' => exact congrArg timestamp (Option.some.inj h)
  | _ => simp [asTimestamp] at h

/-- `as? Int`. Firestore hands numbers and booleans over as `NSNumber`, which bridges to `Int` when
it is a whole number of 64 bits. -/
def asInt : Value → Option ℤ
  | int n => some n
  | bool b => some (if b then 1 else 0)
  | double x => if x.den = 1 ∧ -2 ^ 63 ≤ x.num ∧ x.num < 2 ^ 63 then some x.num else none
  | _ => none

/-- `as? [String]`. -/
def asStrings : Value → Option (List String)
  | array vs => vs.mapM asString
  | _ => none

@[simp] theorem asStrings_map_string (l : List String) :
    (array (l.map string)).asStrings = some l := by
  have h : ∀ l : List String, (l.map string).mapM asString = some l := by
    intro l
    induction l with
    | nil => rfl
    | cons s l ih => simp [List.mapM_cons, asString, ih]
  exact h l

end Value

/-- A dictionary `[String: Any]`. -/
abbrev Dictionary := String → Option Value

/-- A dictionary literal. -/
def Dictionary.ofList (entries : List (String × Value)) : Dictionary := fun key =>
  entries.lookup key

/-! ### Yaks -/

/-- A message pinned to a place. -/
structure Yak where
  userId : String
  imageUrl : String
  location : GeoPoint
  timeStamp : Date
  likes : ℤ
  comments : List String
deriving DecidableEq

namespace Yak

/-- The computed property `dictionary`. -/
def dictionary (y : Yak) : Dictionary := .ofList [
  ("user_id", .string y.userId),
  ("image_url", .string y.imageUrl),
  ("location", .geoPoint y.location),
  ("time_stamp", .date y.timeStamp),
  ("likes", .int y.likes),
  ("comments", .array (y.comments.map .string))]

/-- The failable initializer `init?(dictionary:)`. Only `comments` may be absent or of another
type, and then reads as the empty list. -/
def init? (dictionary : Dictionary) : Option Yak := do
  let userId ← dictionary "user_id" >>= Value.asString
  let imageUrl ← dictionary "image_url" >>= Value.asString
  let location ← dictionary "location" >>= Value.asGeoPoint
  let timeStamp ← dictionary "time_stamp" >>= Value.asTimestamp
  let likes ← dictionary "likes" >>= Value.asInt
  match dictionary "comments" >>= Value.asStrings with
  | some comments => some ⟨userId, imageUrl, location, timeStamp.dateValue, likes, comments⟩
  | none => some ⟨userId, imageUrl, location, timeStamp.dateValue, likes, []⟩

/-- The fields that are written at the upload and never again. -/
def identity (y : Yak) : String × String × GeoPoint × Date :=
  (y.userId, y.imageUrl, y.location, y.timeStamp)

/-- A dictionary decodes exactly when its five mandatory fields have their types. -/
theorem init?_eq_some {d : Dictionary} {y : Yak} :
    init? d = some y ↔
      (d "user_id" >>= Value.asString) = some y.userId ∧
      (d "image_url" >>= Value.asString) = some y.imageUrl ∧
      (d "location" >>= Value.asGeoPoint) = some y.location ∧
      (∃ t, (d "time_stamp" >>= Value.asTimestamp) = some t ∧ t.dateValue = y.timeStamp) ∧
      (d "likes" >>= Value.asInt) = some y.likes ∧
      (d "comments" >>= Value.asStrings).getD [] = y.comments := by
  obtain ⟨userId, imageUrl, location, timeStamp, likes, comments⟩ := y
  simp only [init?]
  cases d "user_id" >>= Value.asString <;> cases d "image_url" >>= Value.asString <;>
    cases d "location" >>= Value.asGeoPoint <;> cases d "time_stamp" >>= Value.asTimestamp <;>
    cases d "likes" >>= Value.asInt <;> cases d "comments" >>= Value.asStrings <;>
    simp

end Yak

end SnapYak
