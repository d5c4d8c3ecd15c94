import SnapYak.Machine.History
import SnapYak.Store.Database
import SnapYak.Store.Platform
import SnapYak.Store.Storage

/-!
# The back end and its outstanding calls

Every call to Firestore and to Storage is asynchronous: the app issues it and goes on, and at later
moments the service acts on it and the callback runs. A state of the back end has the collection,
the stored photos and the calls that are outstanding, each kind in the order of issue.

* `getDocuments` (`Read`): the service takes a snapshot of the collection at one moment between the
  call and its callback (`Signal.snapshot`); the callback then runs `fetchYaks` or the loop of an
  update (`Signal.deliver`), or is told of an error (`Signal.fail`).
* `updateData` (`Write`): one document is overwritten at one moment (`Signal.apply`), or the call is
  rejected.
* `putData` (`Put`): the whole photo is stored (`Signal.store`); the completion runs without an
  error only after that (`Signal.complete`), and creates the document of the yak.
* `addDocument`: the document is created (`Signal.create`), or not.

Nothing is assumed about the order in which calls are acted on. The type `κ` has the completions of
fetches and the type `τ` the callers of updates; no transition reads either.

## Main definitions

* `Remote`, `Request`, `Remote.issue` : the back end and the calls of the app.
* `Signal`, `Remote.signal` : what the services do.
* `Remote.machine` : all runs of calls and signals.
-/

namespace SnapYak

/-! ### States -/

/-- The closures handed to `getDocuments`. -/
inductive Callback (κ τ D : Type)
  /-- `fetchYaks(currentLocation:radius:completion:)`. -/
  | fetchYaks (currentLocation : GeoPoint) (radius : D) (completion : κ)
  /-- `updateYakVote(targetYak:)` and `updateComments(targetYak:)`. -/
  | update (field : Field) (targetYak : Yak) (caller : τ)

/-- The update that a callback belongs to: its field, its target and its caller. -/
def Callback.call? {κ τ D : Type} : Callback κ τ D → Option (Field × Yak × τ)
  | .fetchYaks .. => none
  | .update field targetYak caller => some (field, targetYak, caller)

/-- An outstanding `getDocuments`, with its snapshot once it is taken. -/
structure Read (κ τ D : Type) where
  callback : Callback κ τ D
  rawSnapshot : Option (List Document)

/-- The update that an outstanding `getDocuments` belongs to. -/
def Read.call? {κ τ D : Type} (r : Read κ τ D) : Option (Field × Yak × τ) := r.callback.call?

/-- An outstanding `updateData`. -/
structure Write (τ : Type) where
  documentID : ℕ
  field : Field
  targetYak : Yak
  caller : τ

/-- The update that a write belongs to. -/
def Write.call {τ : Type} (w : Write τ) : Field × Yak × τ := (w.field, w.targetYak, w.caller)

/-- An outstanding `putData`, and whether the photo is stored by now. -/
structure Put where
  fileName : String
  data : Data
  isStored : Bool

/-- The back end. -/
structure Remote (κ τ D : Type) where
  /-- The collection `Yaks`. -/
  docs : List Document
  /-- The photos in Storage. -/
  objects : StorageReference → Option Data
  reads : List (Read κ τ D)
  writes : List (Write τ)
  puts : List Put
  /-- Outstanding `addDocument` calls, with the yaks to be written. -/
  adds : List Yak
  /-- The names generated so far and the photos uploaded under them. -/
  uploads : List (String × Data)

/-- The calls of the app. -/
inductive Request (κ τ D : Type)
  | getDocuments (callback : Callback κ τ D)
  | putData (guid : Guid) (data : Data)

/-- The update that a call begins. -/
def Request.call? {κ τ D : Type} : Request κ τ D → Option (Field × Yak × τ)
  | .getDocuments callback => callback.call?
  | .putData .. => none

/-- `updateYakVote(targetYak:)`. -/
def updateYakVote {κ τ D : Type} (targetYak : Yak) (caller : τ) : Request κ τ D :=
  .getDocuments (.update .likes targetYak caller)

/-- `updateComments(targetYak:)`. -/
def updateComments {κ τ D : Type} (targetYak : Yak) (caller : τ) : Request κ τ D :=
  .getDocuments (.update .comments targetYak caller)

/-- `uploadButtonAction`: the photo is written to a new local file and uploaded under the same
name. Without a JPEG representation, with a file of that name present, or when writing the file
fails, nothing is uploaded. -/
def uploadButtonAction {κ τ D : Type} (guid : Guid) (jpegData : Option Data)
    (fileExists writeFails : Bool) : List (Request κ τ D) :=
  match jpegData with
  | none => []
  | some data =>
    if fileExists then []
    else if writeFails then []
    else [.putData guid data]

/-- The yak that the completion of `putData` creates. -/
def newYak (fileName : String) (currentLocation : GeoPoint) (date : Date) : Yak where
  userId := "B1WRIde8IPTZuWoTsiBU"
  imageUrl := fileName
  location := currentLocation
  timeStamp := date
  likes := 0
  comments := []

/-! ### Transitions -/

/-- What the services do; the number is the position of the call among the outstanding ones of its
kind. -/
inductive Signal
  | snapshot (n : ℕ)
  | deliver (n : ℕ)
  | fail (n : ℕ)
  | apply (n : ℕ)
  | reject (n : ℕ)
  | store (n : ℕ)
  /-- The completion of `putData` without an error, at a location and a date. With a date that
  Firestore cannot convert, `addDocument` ends the app with an exception. -/
  | complete (n : ℕ) (currentLocation : GeoPoint) (date : Date)
  | failPut (n : ℕ)
  /-- The document is created under a fresh identifier. -/
  | create (n : ℕ) (documentID : ℕ)
  | failCreate (n : ℕ)

/-- A signal that is not the failure of a call. -/
def Signal.Succeeds : Signal → Prop
  | fail _ | reject _ | failPut _ | failCreate _ => False
  | _ => True

instance : (g : Signal) → Decidable g.Succeeds
  | .fail _ | .reject _ | .failPut _ | .failCreate _ => isFalse id
  | .snapshot _ | .deliver _ | .apply _ | .store _ | .complete .. | .create .. => isTrue trivial

/-- What a callback does on the device. -/
inductive Outcome (κ : Type)
  | nothing
  | completion (k : κ) (yaks : List Yak)
  | trap

namespace Remote

variable {κ τ D : Type} [LE D] [DecidableLE D]

/-- A back end without documents, photos or calls. -/
def empty : Remote κ τ D where
  docs := []
  objects := fun _ => none
  reads := []
  writes := []
  puts := []
  adds := []
  uploads := []

/-- No call is outstanding. -/
def Quiescent (s : Remote κ τ D) : Prop :=
  s.reads = [] ∧ s.writes = [] ∧ s.puts = [] ∧ s.adds = []

instance (s : Remote κ τ D) : Decidable s.Quiescent :=
  decidable_of_iff (s.reads.isEmpty ∧ s.writes.isEmpty ∧ s.puts.isEmpty ∧ s.adds.isEmpty) (by
    simp [Quiescent])

/-- The names of the photos that are being uploaded or whose document is being created. -/
def pendingNames (s : Remote κ τ D) : List String :=
  s.puts.map Put.fileName ++ s.adds.map Yak.imageUrl

/-- The app issues a call. A generated name never repeats. -/
def issue (s : Remote κ τ D) : Request κ τ D → Option (Remote κ τ D)
  | .getDocuments callback => some { s with reads := s.reads ++ [⟨callback, none⟩] }
  | .putData guid data =>
    if photoName guid ∈ s.uploads.map Prod.fst then none
    else some { s with
      puts := s.puts ++ [⟨photoName guid, data, false⟩]
      uploads := s.uploads ++ [(photoName guid, data)] }

/-- The callback of a `getDocuments` that returned the snapshot `docs`. -/
def callback (distance : GeoPoint → GeoPoint → D) (s : Remote κ τ D) (docs : List Document) :
    Callback κ τ D → Remote κ τ D × Outcome κ
  | .fetchYaks currentLocation radius completion =>
    match SnapYak.fetchYaks distance currentLocation radius docs with
    | some result => (s, .completion completion result)
    | none => (s, .trap)
  | .update field targetYak caller =>
    match firstMatch targetYak docs with
    | some documentID =>
      ({ s with writes := s.writes ++ [⟨documentID, field, targetYak, caller⟩] }, .nothing)
    | none => (s, .nothing)

/-- A signal of the services, and what the callback does on the device if one runs. -/
def signal (distance : GeoPoint → GeoPoint → D) (s : Remote κ τ D) :
    Signal → Option (Remote κ τ D × Outcome κ)
  | .snapshot n => do
    let read ← s.reads[n]?
    if read.rawSnapshot.isSome then none
    else some ({ s with reads := s.reads.set n { read with rawSnapshot := some s.docs } }, .nothing)
  | .deliver n => do
    let read ← s.reads[n]?
    let docs ← read.rawSnapshot
    some (callback distance { s with reads := s.reads.eraseIdx n } docs read.callback)
  | .fail n => do
    let _ ← s.reads[n]?
    some ({ s with reads := s.reads.eraseIdx n }, .nothing)
  | .apply n => do
    let write ← s.writes[n]?
    some ({ s with
      docs := updateData s.docs write.documentID (write.field.payload write.targetYak)
      writes := s.writes.eraseIdx n }, .nothing)
  | .reject n => do
    let _ ← s.writes[n]?
    some ({ s with writes := s.writes.eraseIdx n }, .nothing)
  | .store n => do
    let put ← s.puts[n]?
    some ({ s with
      objects := Function.update s.objects (imageUploadRef put.fileName) (some put.data)
      puts := s.puts.set n { put with isStored := true } }, .nothing)
  | .complete n currentLocation date => do
    let put ← s.puts[n]?
    if put.isStored ∧ (Timestamp.timestampWithDate date).isSome then
      some ({ s with
        puts := s.puts.eraseIdx n
        adds := s.adds ++ [newYak put.fileName currentLocation date] }, .nothing)
    else none
  | .failPut n => do
    let _ ← s.puts[n]?
    some ({ s with puts := s.puts.eraseIdx n }, .nothing)
  | .create n documentID => do
    let y ← s.adds[n]?
    if documentID ∈ s.docs.map Document.documentID then none
    else some ({ s with
      docs := addDocument s.docs documentID y.dictionary
      adds := s.adds.eraseIdx n }, .nothing)
  | .failCreate n => do
    let _ ← s.adds[n]?
    some ({ s with adds := s.adds.eraseIdx n }, .nothing)

/-- A call of the app or a signal of the services. -/
inductive Event (κ τ D : Type)
  | issue (r : Request κ τ D)
  | signal (g : Signal)

/-- All runs of calls and signals, whoever the callers are. -/
def machine (κ τ : Type) (distance : GeoPoint → GeoPoint → D) :
    Machine (Remote κ τ D) (Event κ τ D) where
  step s
    | .issue r => s.issue r
    | .signal g => (s.signal distance g).map Prod.fst

end Remote

end SnapYak
