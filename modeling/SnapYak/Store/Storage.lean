import Mathlib.Logic.Function.Basic
import Mathlib.Data.List.Infix
import SnapYak.Store.Yak

/-!
# References into Storage, and the names of photos

A photo is uploaded to the reference `images` / `fileName` and fetched from the reference
`images/imageURL`, unless `imageURL` contains the letters `http` and is taken for a web address
(`Database.fetchImage`). The two references are built by two different calls of `child`; that they
agree, and that no generated name is mistaken for a web address, is `fetchImage_generated`.

A reference is kept as the list of its components. `FIRStoragePath` joins them with single
slashes, after removing empty ones, whenever a path is built.
-/

namespace SnapYak

/-- The bytes of a photo. -/
abbrev Data := List UInt8

/-- A reference into the storage bucket (`StorageReference`). -/
structure StorageReference where
  /-- The components of the object name; the root has none. -/
  object : List (List Char)
deriving DecidableEq

namespace StorageReference

/-- The components of a path, without the empty ones (`standardizedPathForString:`). -/
def components (path : String) : List (List Char) :=
  (path.toList.splitOn '/').filter (· ≠ [])

/-- `Storage.storage().reference()`. -/
def reference : StorageReference := ⟨[]⟩

/-- `child(path)`. -/
def child (r : StorageReference) (path : String) : StorageReference :=
  ⟨r.object ++ components path⟩

end StorageReference

/-! ### Generated names -/

/-- The characters of `ProcessInfo.globallyUniqueString`: hexadecimal digits and hyphens. -/
def IsGuidChar (c : Char) : Prop :=
  c ∈ "0123456789ABCDEFabcdef-".toList

instance (c : Char) : Decidable (IsGuidChar c) :=
  inferInstanceAs (Decidable (c ∈ _))

/-- A value of `ProcessInfo.globallyUniqueString`. -/
structure Guid where
  string : String
  isGuidChar : ∀ c ∈ string.toList, IsGuidChar c

/-- The value with given characters. -/
def Guid.ofString (string : String) (h : string.toList.Forall IsGuidChar) : Guid :=
  ⟨string, List.forall_iff_forall_mem.mp h⟩

/-- `generateUniqueFilename(myFileName:)`. -/
def generateUniqueFilename (myFileName : String) (guid : Guid) : String :=
  myFileName ++ "_" ++ guid.string

/-- The name of a photo, as `uploadButtonAction` builds it. -/
def photoName (guid : Guid) : String :=
  generateUniqueFilename "image" guid ++ ".jpg"

/-- The reference that `uploadButtonAction` uploads a photo to. -/
def imageUploadRef (fileName : String) : StorageReference :=
  (StorageReference.reference.child "images").child fileName

/-- Where `fetchImage` looks for an image. -/
inductive ImageSource
  | http (url : String)
  | storage (ref : StorageReference)

/-- `fetchImage(imageURL:)`: the branch taken and the address requested. -/
def fetchImage (imageURL : String) : ImageSource :=
  if "http".toList <:+: imageURL.toList then .http imageURL
  else .storage (StorageReference.reference.child ("images/" ++ imageURL))

/-- A generated name has no `h` and no slash. -/
theorem ne_of_mem_photoName {guid : Guid} {c : Char} (hc : c ∈ (photoName guid).toList) :
    c ≠ 'h' ∧ c ≠ '/' := by
  simp only [photoName, generateUniqueFilename, String.toList_append, List.mem_append] at hc
  have hall {l : List Char} (h : l.Forall fun c => c ≠ 'h' ∧ c ≠ '/') :
      ∀ c ∈ l, c ≠ 'h' ∧ c ≠ '/' :=
    List.forall_iff_forall_mem.mp h
  have hguid : ∀ c, IsGuidChar c → c ≠ 'h' ∧ c ≠ '/' :=
    hall (show List.Forall _ "0123456789ABCDEFabcdef-".toList by decide)
  have himage : ∀ c ∈ "image".toList ++ "_".toList ++ ".jpg".toList, c ≠ 'h' ∧ c ≠ '/' :=
    hall (by decide)
  rcases hc with ((hc | hc) | hc) | hc
  · exact himage c (List.mem_append_left _ (List.mem_append_left _ hc))
  · exact himage c (List.mem_append_left _ (List.mem_append_right _ hc))
  · exact hguid c (guid.isGuidChar c hc)
  · exact himage c (List.mem_append_right _ hc)

theorem photoName_ne_nil (guid : Guid) : (photoName guid).toList ≠ [] := by
  rw [photoName, String.toList_append]
  exact List.append_ne_nil_of_right_ne_nil _ (by decide)

theorem components_photoName (guid : Guid) :
    StorageReference.components (photoName guid) = [(photoName guid).toList] := by
  rw [StorageReference.components,
    List.splitOn_eq_singleton fun h => (ne_of_mem_photoName h).2 rfl]
  rw [List.filter_cons_of_pos (by simpa using photoName_ne_nil guid), List.filter_nil]

theorem imageUploadRef_photoName (guid : Guid) :
    imageUploadRef (photoName guid) = ⟨["images".toList, (photoName guid).toList]⟩ := by
  rw [imageUploadRef, StorageReference.child, StorageReference.child, components_photoName]
  rfl

/-- Different names are uploaded to different objects. -/
theorem imageUploadRef_injective {guid guid' : Guid}
    (h : imageUploadRef (photoName guid) = imageUploadRef (photoName guid')) :
    photoName guid = photoName guid' := by
  rw [imageUploadRef_photoName, imageUploadRef_photoName] at h
  simpa [String.toList_inj] using h

/-- **Upload and download agree.** A generated name is looked for in Storage, at the very
reference that its photo was uploaded to. -/
theorem fetchImage_generated (guid : Guid) :
    fetchImage (photoName guid) = .storage (imageUploadRef (photoName guid)) := by
  have hhttp : ¬"http".toList <:+: (photoName guid).toList := fun h =>
    (ne_of_mem_photoName (h.subset (by decide : 'h' ∈ "http".toList))).1 rfl
  rw [fetchImage, if_neg hhttp, imageUploadRef_photoName, StorageReference.child,
    StorageReference.components, String.toList_append]
  have hsplit : ("images/".toList ++ (photoName guid).toList).splitOn '/' =
      "images".toList :: (photoName guid).toList.splitOn '/' :=
    List.splitOn_append_cons_self_of_not_mem (show '/' ∉ "images".toList by decide) _
  rw [hsplit, List.splitOn_eq_singleton fun h => (ne_of_mem_photoName h).2 rfl]
  rw [List.filter_cons_of_pos (by decide),
    List.filter_cons_of_pos (by simpa using photoName_ne_nil guid), List.filter_nil]
  rfl

end SnapYak
