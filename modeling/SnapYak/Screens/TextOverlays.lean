import Mathlib.Algebra.Order.Field.Rat
import Mathlib.Data.Rat.Floor
import SnapYak.Machine.Run

/-!
# The text fields of the upload screen

The upload screen puts text fields on the photo (`MessageUploadViewController.swift`). A field that
is edited is raised above the keyboard, and put back when the keyboard goes. The controller
remembers one height for all fields, that of the last creation, and looks for empty text only in the
field created last.

So a field is put back to its place only if this is the height of the last creation, and only if it
is the active field when the keyboard goes (`UploadScreen.clean_iff`).

The colours and the buttons are left out.

## Main definitions

* `UITextField` : a text field, with its place and the height that the keyboard has raised it to.
* `MessageUploadViewController` : the text fields of the screen, and the methods.
* `UploadScreen.machine` : creating, editing, tapping and dragging fields, and hiding the keyboard.
* `MessageUploadViewController.Clean` : no empty field is left, and every field is at its place.
* `MessageUploadViewController.CanHide` : hiding the keyboard leaves the fields so.

## Main results

* `MessageUploadViewController.clean_keyboardWillHide_iff` : what hiding the keyboard does.
* `UploadScreen.clean_iff` : the runs in which the fields are as the user placed them.
-/

namespace SnapYak

/-- A text field. -/
structure UITextField where
  text : String
  isHidden : Bool
  /-- `frame.origin.y`. -/
  y : ℚ
  /-- The height at which the field was created, or to which it was dragged last. -/
  place : ℚ
  /-- The height to which the keyboard has raised the field, if it has not been placed since. -/
  raised : Option ℚ
deriving DecidableEq

namespace UITextField

/-- A new text field. -/
def create (y : ℚ) : UITextField := ⟨"", false, y, y, none⟩

/-- The user puts the field at a height. -/
def drag (y : ℚ) (f : UITextField) : UITextField := { f with y := y, place := y, raised := none }

/-- The keyboard raises the field. -/
def raise (y : ℚ) (f : UITextField) : UITextField := { f with y := y, raised := some y }

/-- The field is put back to a height, when the keyboard goes. -/
def putBack (y : ℚ) (f : UITextField) : UITextField := { f with y := y, raised := none }

/-- The field is hidden if it has no text. -/
def hideIfEmpty (f : UITextField) : UITextField :=
  if f.text = "" then { f with isHidden := true } else f

end UITextField

/-- The size of the view of the screen. -/
structure ViewFrame where
  height : ℚ
  maxY : ℚ

/-- The upload screen. A field is referred to by its position in `textFields`. -/
structure MessageUploadViewController where
  textFields : List UITextField
  previousTextFieldY : Option ℚ
  keyboardIsVisible : Bool
  activeTextField : Option ℕ
deriving DecidableEq

namespace MessageUploadViewController

/-- The screen before any text is created. -/
def initial : MessageUploadViewController := ⟨[], none, false, none⟩

/-- A change of one of the fields. -/
def modifyField (vc : MessageUploadViewController) (i : ℕ) (g : UITextField → UITextField) :
    MessageUploadViewController :=
  { vc with textFields := vc.textFields.modify i g }

/-- `dragged(gesture:)`. -/
def dragged (vc : MessageUploadViewController) (i : ℕ) (y : ℚ) : MessageUploadViewController :=
  vc.modifyField i (.drag y)

/-- `tapped(sender:)`. -/
def tapped (vc : MessageUploadViewController) (i : ℕ) : MessageUploadViewController :=
  { vc with activeTextField := some i }

/-- `keyboardWillShow(notification:)`, for a keyboard of the given height. -/
def keyboardWillShow (view : ViewFrame) (keyboard : ℚ) (vc : MessageUploadViewController) :
    MessageUploadViewController :=
  let vc := { vc with keyboardIsVisible := true }
  let targetY := view.height - keyboard - 40
  match vc.activeTextField with
  | some i => vc.modifyField i (.raise targetY)
  | none => vc

/-- The first half of `keyboardWillHide(notification:)`: the active field is put back if it has
text. `none` is the trap of the forced `previousTextFieldY`. -/
def putBackActive (vc : MessageUploadViewController) : Option MessageUploadViewController :=
  match vc.activeTextField with
  | none => some vc
  | some i =>
    match vc.textFields[i]? with
    | none => some vc
    | some textField =>
      if textField.text ≠ "" then vc.previousTextFieldY.map fun y => vc.modifyField i (.putBack y)
      else some vc

/-- The second half of `keyboardWillHide(notification:)`: the field created last is hidden if it has
no text. -/
def hideLast (vc : MessageUploadViewController) : MessageUploadViewController :=
  vc.modifyField (vc.textFields.length - 1) .hideIfEmpty

/-- `keyboardWillHide(notification:)`. -/
def keyboardWillHide (vc : MessageUploadViewController) : Option MessageUploadViewController :=
  ({ vc with keyboardIsVisible := false }.putBackActive).map hideLast

/-- `createTextMessage(x:y:)`: a new field becomes the first responder, and the keyboard appears. If
it is there already, editing ends. -/
def createTextMessage (view : ViewFrame) (keyboard y : ℚ) (vc : MessageUploadViewController) :
    Option MessageUploadViewController :=
  if vc.keyboardIsVisible then vc.keyboardWillHide
  else
    let vc := { vc with
      activeTextField := some vc.textFields.length
      textFields := vc.textFields ++ [UITextField.create y]
      previousTextFieldY := some y }
    some (vc.keyboardWillShow view keyboard)

/-- `createTextAcction(_:)`. -/
def createTextAcction (view : ViewFrame) (keyboard : ℚ) (vc : MessageUploadViewController) :
    Option MessageUploadViewController :=
  vc.createTextMessage view keyboard (view.maxY / 2)

/-! ### As the user placed them -/

/-- While the keyboard is hidden, a field without text is hidden, and every other is at its
place. -/
def Clean (vc : MessageUploadViewController) : Prop :=
  vc.keyboardIsVisible = false → ∀ (i : ℕ) (f : UITextField), vc.textFields[i]? = some f →
    (f.text = "" → f.isHidden = true) ∧ (f.isHidden = false → f.y = f.place)

/-- What hiding the keyboard needs. A visible field without text is the one created last; the active
field, if it has text, has its place where the last field was created; and every other field with
text has been placed since the keyboard raised it, or was raised to its place. -/
def CanHide (vc : MessageUploadViewController) : Prop :=
  ∀ (i : ℕ) (f : UITextField), vc.textFields[i]? = some f → f.isHidden = false →
    (f.text = "" → i = vc.textFields.length - 1) ∧
    (f.text ≠ "" → if vc.activeTextField = some i then vc.previousTextFieldY = some f.place
      else ∀ y ∈ f.raised, y = f.place)

instance (vc : MessageUploadViewController) : Decidable vc.CanHide :=
  decidable_of_iff (∀ p ∈ vc.textFields.zipIdx, p.1.isHidden = false →
    (p.1.text = "" → p.2 = vc.textFields.length - 1) ∧
    (p.1.text ≠ "" → if vc.activeTextField = some p.2 then vc.previousTextFieldY = some p.1.place
      else ∀ y ∈ p.1.raised, y = p.1.place)) (by
    simp only [CanHide, Prod.forall, List.mk_mem_zipIdx_iff_getElem?]
    exact forall_comm)

/-- A visible field is where the keyboard has raised it, or at its place. -/
def Tracked (vc : MessageUploadViewController) : Prop :=
  ∀ (i : ℕ) (f : UITextField), vc.textFields[i]? = some f → f.isHidden = false →
    f.y = f.raised.getD f.place

variable {vc vc' : MessageUploadViewController}

theorem getElem?_modifyField (vc : MessageUploadViewController) (i j : ℕ)
    (g : UITextField → UITextField) : (vc.modifyField i g).textFields[j]? =
      vc.textFields[j]?.map fun f => if i = j then g f else f :=
  List.getElem?_modify ..

@[simp] theorem length_modifyField (vc : MessageUploadViewController) (i : ℕ)
    (g : UITextField → UITextField) :
    (vc.modifyField i g).textFields.length = vc.textFields.length :=
  List.length_modify ..

/-- What the first half of `keyboardWillHide` does to the fields. -/
theorem getElem?_putBackActive (h : vc.putBackActive = some vc') :
    vc'.keyboardIsVisible = vc.keyboardIsVisible ∧
    vc'.textFields.length = vc.textFields.length ∧
    ∀ j, vc'.textFields[j]? = vc.textFields[j]?.map fun f =>
      if f.text ≠ "" ∧ vc.activeTextField = some j then
        .putBack (vc.previousTextFieldY.getD 0) f else f := by
  have hsame (hnot : ∀ (j : ℕ) (f : UITextField), vc.textFields[j]? = some f →
      ¬(f.text ≠ "" ∧ vc.activeTextField = some j)) (j : ℕ) :
      vc.textFields[j]? = vc.textFields[j]?.map fun f =>
        if f.text ≠ "" ∧ vc.activeTextField = some j then
          .putBack (vc.previousTextFieldY.getD 0) f else f := by
    cases hf : vc.textFields[j]? with
    | none => rfl
    | some f => rw [Option.map_some, if_neg (hnot j f hf)]
  simp only [putBackActive] at h
  rcases Option.eq_none_or_eq_some vc.activeTextField with hactive | ⟨i, hactive⟩
  · obtain rfl : vc = vc' := by simpa [hactive] using h
    exact ⟨rfl, rfl, hsame (by simp [hactive])⟩
  · have hone {j : ℕ} (hj : vc.activeTextField = some j) : i = j :=
      Option.some.inj (hactive.symm.trans hj)
    cases hi : vc.textFields[i]? with
    | none =>
      obtain rfl : vc = vc' := by simpa [hactive, hi] using h
      refine ⟨rfl, rfl, hsame ?_⟩
      rintro j f hf ⟨-, hj⟩
      rw [← hone hj, hi] at hf
      exact absurd hf (by simp)
    | some f =>
      by_cases htext : f.text = ""
      · obtain rfl : vc = vc' := by simpa [hactive, hi, htext] using h
        refine ⟨rfl, rfl, hsame ?_⟩
        rintro j f' hf' ⟨hne, hj⟩
        rw [← hone hj, hi] at hf'
        exact hne (Option.some.inj hf' ▸ htext)
      · simp only [hactive, hi, ne_eq, htext, not_false_eq_true, ↓reduceIte,
          Option.map_eq_some_iff] at h
        obtain ⟨y, hy, rfl⟩ := h
        refine ⟨rfl, length_modifyField .., fun j => ?_⟩
        rw [getElem?_modifyField, hy, hactive]
        by_cases hij : i = j
        · subst hij
          simp [hi, htext]
        · simp [hij]

/-- What hiding the keyboard does to the fields. -/
theorem getElem?_keyboardWillHide (h : vc.keyboardWillHide = some vc') :
    vc'.keyboardIsVisible = false ∧ ∀ j, vc'.textFields[j]? = vc.textFields[j]?.map fun f =>
      if f.text = "" then if j = vc.textFields.length - 1 then { f with isHidden := true } else f
      else if vc.activeTextField = some j then .putBack (vc.previousTextFieldY.getD 0) f
      else f := by
  obtain ⟨w, hw, rfl⟩ := Option.map_eq_some_iff.mp h
  obtain ⟨hvisible, hlength, hput⟩ := getElem?_putBackActive hw
  refine ⟨hvisible, fun j => ?_⟩
  rw [hideLast, getElem?_modifyField, hput, hlength, Option.map_map]
  refine Option.map_congr fun f _ => ?_
  by_cases htext : f.text = ""
  · by_cases hj : vc.textFields.length - 1 = j <;>
      simp [htext, UITextField.hideIfEmpty, hj, Ne.symm]
  · by_cases hactive : vc.activeTextField = some j <;>
      simp [htext, hactive, UITextField.hideIfEmpty, UITextField.putBack]

/-- A height is remembered when the active field is put back. -/
theorem exists_previous_of_putBack (h : vc.keyboardWillHide = some vc') {i : ℕ} {f : UITextField}
    (hactive : vc.activeTextField = some i) (hf : vc.textFields[i]? = some f)
    (htext : f.text ≠ "") :
    ∃ y, vc.previousTextFieldY = some y := by
  obtain ⟨w, hw, -⟩ := Option.map_eq_some_iff.mp h
  simp only [putBackActive, hactive, hf, htext, ne_eq, not_false_eq_true, ↓reduceIte,
    Option.map_eq_some_iff] at hw
  obtain ⟨y, hy, -⟩ := hw
  exact ⟨y, hy⟩

/-- A field that `CanHide` speaks of, after the keyboard is hidden: it is hidden without text, and
otherwise at its place and not raised. -/
theorem CanHide.field (hcan : vc.CanHide) (ht : vc.Tracked) (h : vc.keyboardWillHide = some vc')
    {j : ℕ} {f' : UITextField} (hf' : vc'.textFields[j]? = some f') :
    (f'.text = "" → f'.isHidden = true) ∧
      (f'.isHidden = false → f'.y = f'.place ∧ f'.y = f'.raised.getD f'.place) := by
  rw [(getElem?_keyboardWillHide h).2, Option.map_eq_some_iff] at hf'
  obtain ⟨f, hf, rfl⟩ := hf'
  by_cases hhidden : f.isHidden = true
  · by_cases htext : f.text = ""
    · by_cases hj : j = vc.textFields.length - 1 <;> simp [htext, hj, hhidden]
    · by_cases hactive : vc.activeTextField = some j <;>
        simp [htext, hactive, hhidden, UITextField.putBack]
  · have hvisible : f.isHidden = false := by simpa using hhidden
    obtain ⟨hempty, hplaced⟩ := hcan j f hf hvisible
    by_cases htext : f.text = ""
    · simp [htext, hempty htext]
    · have hplaced := hplaced htext
      have htracked := ht j f hf hvisible
      by_cases hactive : vc.activeTextField = some j
      · rw [if_pos hactive] at hplaced
        simp [htext, hactive, hplaced, UITextField.putBack]
      · rw [if_neg hactive] at hplaced
        have hy : f.y = f.place := by
          cases hraised : f.raised with
          | none => rw [htracked, hraised, Option.getD_none]
          | some y => rw [htracked, hraised, Option.getD_some, hplaced y hraised]
        simp only [htext, hactive, ↓reduceIte]
        exact ⟨fun h => h.elim, fun _ => ⟨hy, htracked⟩⟩

/-- Hiding the keyboard leaves the fields as the user placed them exactly when it has what it
needs. -/
theorem clean_keyboardWillHide_iff (ht : vc.Tracked) (h : vc.keyboardWillHide = some vc') :
    (vc'.Clean ↔ vc.CanHide) ∧ (vc.CanHide → vc'.Tracked) := by
  have hkeyboard := (getElem?_keyboardWillHide h).1
  refine ⟨⟨fun hclean j f hf hvisible => ?_, fun hcan _ j f' hf' => ?_⟩, fun hcan j f' hf' hv => ?_⟩
  · have hfield := hclean hkeyboard j _ (by
      rw [(getElem?_keyboardWillHide h).2, hf, Option.map_some])
    by_cases htext : f.text = ""
    · refine ⟨fun _ => ?_, fun hne => absurd htext hne⟩
      by_contra hj
      simp [htext, hj, hvisible] at hfield
    · refine ⟨fun he => absurd he htext, fun _ => ?_⟩
      by_cases hactive : vc.activeTextField = some j
      · obtain ⟨y, hy⟩ := exists_previous_of_putBack h hactive hf htext
        simp only [htext, hactive, ↓reduceIte, UITextField.putBack, hy, Option.getD_some,
          false_implies, true_and, hvisible, forall_const] at hfield
        rw [if_pos hactive, hy, hfield]
      · rw [if_neg hactive]
        intro y hy
        simp only [htext, hactive, ↓reduceIte, false_implies, true_and, hvisible,
          forall_const] at hfield
        rw [← hfield, ht j f hf hvisible, hy, Option.getD_some]
  · have hfield := hcan.field ht h hf'
    exact ⟨hfield.1, fun hv => (hfield.2 hv).1⟩
  · exact ((hcan.field ht h hf').2 hv).2

/-- A change of a field that keeps track of where it is. -/
theorem Tracked.modifyField (h : vc.Tracked) (i : ℕ) {g : UITextField → UITextField}
    (hg : ∀ f, (f.isHidden = false → f.y = f.raised.getD f.place) →
      (g f).isHidden = false → (g f).y = (g f).raised.getD (g f).place) :
    (vc.modifyField i g).Tracked := by
  intro j f' hf' hvisible
  rw [getElem?_modifyField, Option.map_eq_some_iff] at hf'
  obtain ⟨f, hf, rfl⟩ := hf'
  split_ifs at hvisible ⊢
  · exact hg f (h j f hf) hvisible
  · exact h j f hf hvisible

theorem Tracked.keyboardWillShow (h : vc.Tracked) (view : ViewFrame) (keyboard : ℚ) :
    (vc.keyboardWillShow view keyboard).Tracked ∧
      (vc.keyboardWillShow view keyboard).keyboardIsVisible = true := by
  have hshown : Tracked { vc with keyboardIsVisible := true } := h
  simp only [MessageUploadViewController.keyboardWillShow]
  split
  · exact ⟨hshown.modifyField _ fun f _ _ => rfl, rfl⟩
  · exact ⟨hshown, rfl⟩

theorem clean_of_visible (h : vc.keyboardIsVisible = true) : vc.Clean := fun hhidden => by
  rw [h] at hhidden
  exact absurd hhidden (by decide)

theorem Clean.dragged (h : vc.Clean) (i : ℕ) (y : ℚ) : (vc.dragged i y).Clean := by
  intro hhidden j f' hf'
  rw [MessageUploadViewController.dragged, getElem?_modifyField, Option.map_eq_some_iff] at hf'
  obtain ⟨f, hf, rfl⟩ := hf'
  split_ifs
  · exact ⟨(h hhidden j f hf).1, fun _ => rfl⟩
  · exact h hhidden j f hf

end MessageUploadViewController

/-! ### Runs of the upload screen -/

namespace UploadScreen

open MessageUploadViewController

/-- What the user does. The number is the height of the keyboard that appears. -/
inductive Event
  | createTextAcction (keyboard : ℚ)
  /-- The text of the field that is edited is changed. -/
  | edit (text : String)
  /-- A visible field is tapped, and the keyboard appears if it is hidden. -/
  | tapped (i : ℕ) (keyboard : Option ℚ)
  | dragged (i : ℕ) (y : ℚ)
  /-- The return key. -/
  | textFieldShouldReturn

/-- All runs of the screen. Only visible fields can be touched. -/
def machine (view : ViewFrame) : Machine MessageUploadViewController Event where
  step vc
    | .createTextAcction keyboard => vc.createTextAcction view keyboard
    | .edit text => do
      let i ← vc.activeTextField
      if vc.keyboardIsVisible then some (vc.modifyField i fun f => { f with text := text })
      else none
    | .tapped i keyboard => do
      let f ← vc.textFields[i]?
      if f.isHidden then none
      else match keyboard with
        | some keyboard => some ((vc.tapped i).keyboardWillShow view keyboard)
        | none => if vc.keyboardIsVisible then some (vc.tapped i) else none
    | .dragged i y => do
      let f ← vc.textFields[i]?
      if f.isHidden then none else some (vc.dragged i y)
    | .textFieldShouldReturn => if vc.keyboardIsVisible then vc.keyboardWillHide else none

/-- Whenever the keyboard is hidden, it can be. -/
def HidesWell (vc : MessageUploadViewController) : Event → Prop
  | .textFieldShouldReturn => vc.CanHide
  | .createTextAcction _ => vc.keyboardIsVisible = true → vc.CanHide
  | _ => True

instance (vc : MessageUploadViewController) : (e : Event) → Decidable (HidesWell vc e)
  | .textFieldShouldReturn => inferInstanceAs (Decidable vc.CanHide)
  | .createTextAcction _ => inferInstanceAs (Decidable (vc.keyboardIsVisible = true → vc.CanHide))
  | .edit _ | .tapped .. | .dragged .. => isTrue trivial

variable {view : ViewFrame} {s t : MessageUploadViewController}

/-- A step leaves the fields as the user placed them, unless it hides the keyboard when it should
not. -/
theorem clean_step_iff {e : Event} (h : s.Tracked ∧ s.Clean)
    (ht : (machine view).step s e = some t) :
    (t.Clean ↔ HidesWell s e) ∧ (HidesWell s e → t.Tracked ∧ t.Clean) := by
  have hclean (htracked : t.Tracked) (hc : t.Clean) (hA : HidesWell s e) :
      (t.Clean ↔ HidesWell s e) ∧ (HidesWell s e → t.Tracked ∧ t.Clean) :=
    ⟨iff_of_true hc hA, fun _ => ⟨htracked, hc⟩⟩
  have hhide (hide : s.keyboardWillHide = some t) (hA : HidesWell s e ↔ s.CanHide) :
      (t.Clean ↔ HidesWell s e) ∧ (HidesWell s e → t.Tracked ∧ t.Clean) := by
    obtain ⟨hiff, htracked⟩ := clean_keyboardWillHide_iff h.1 hide
    rw [hA]
    exact ⟨hiff, fun hcan => ⟨htracked hcan, hiff.mpr hcan⟩⟩
  cases e with
  | createTextAcction keyboard =>
    simp only [machine, createTextAcction, createTextMessage] at ht
    by_cases hvisible : s.keyboardIsVisible = true
    · rw [if_pos hvisible] at ht
      exact hhide ht ⟨fun hA => hA hvisible, fun hcan _ => hcan⟩
    · rw [if_neg hvisible] at ht
      obtain rfl := Option.some.inj ht
      have hcreated : Tracked { s with
          activeTextField := some s.textFields.length
          textFields := s.textFields ++ [UITextField.create (view.maxY / 2)]
          previousTextFieldY := some (view.maxY / 2) } := by
        intro i f hf hv
        rcases List.mem_append.mp (List.mem_of_getElem? hf) with hf | hf
        · obtain ⟨j, hj⟩ := List.mem_iff_getElem?.mp hf
          exact h.1 j f hj hv
        · obtain rfl := List.mem_singleton.mp hf
          rfl
      obtain ⟨htracked, hshown⟩ := hcreated.keyboardWillShow view keyboard
      exact hclean htracked (clean_of_visible hshown) fun hv => absurd hv hvisible
  | edit text =>
    simp only [machine, Option.bind_eq_bind, Option.bind_eq_some_iff] at ht
    obtain ⟨i, -, ht⟩ := ht
    split_ifs at ht with hvisible
    obtain rfl := Option.some.inj ht
    exact hclean (h.1.modifyField i fun f hf => hf) (clean_of_visible hvisible) trivial
  | tapped i keyboard =>
    simp only [machine, Option.bind_eq_bind, Option.bind_eq_some_iff] at ht
    obtain ⟨f, -, ht⟩ := ht
    have htapped : (s.tapped i).Tracked := h.1
    cases keyboard with
    | some keyboard =>
      simp only at ht
      split_ifs at ht
      obtain rfl := Option.some.inj ht
      obtain ⟨htracked, hshown⟩ := htapped.keyboardWillShow view keyboard
      exact hclean htracked (clean_of_visible hshown) trivial
    | none =>
      split_ifs at ht with _ hvisible
      obtain rfl := Option.some.inj ht
      exact hclean htapped (clean_of_visible hvisible) trivial
  | dragged i y =>
    simp only [machine, Option.bind_eq_bind, Option.bind_eq_some_iff] at ht
    obtain ⟨f, -, ht⟩ := ht
    split_ifs at ht
    obtain rfl := Option.some.inj ht
    exact hclean (h.1.modifyField i fun f _ _ => rfl) (h.2.dragged i y) trivial
  | textFieldShouldReturn =>
    simp only [machine] at ht
    split_ifs at ht
    exact hhide ht Iff.rfl

/-- **Texts at their places.** In every state of a run with the keyboard hidden, no field without
text is visible, and every visible field is where the user created or last dragged it, if and only
if the keyboard is hidden only when it can be. -/
theorem clean_iff {es : List Event} (hrun : (machine view).run initial es = some t) :
    (machine view).Visits Clean initial es ↔ (machine view).Along HidesWell initial es :=
  Machine.visits_iff_along_of_invariant (I := fun s => s.Tracked ∧ s.Clean)
    (fun h ht => clean_step_iff h ht) ⟨by simp [Tracked, initial], by simp [Clean, initial]⟩
    (by simp [Clean, initial]) hrun

/-- A text is created and then dragged, and another one is created after it. -/
theorem clean_iff_two_texts :
    (machine ⟨800, 800⟩).Visits Clean initial [.createTextAcction 300, .edit "hi",
      .textFieldShouldReturn, .dragged 0 100, .createTextAcction 300, .edit "ho",
      .textFieldShouldReturn] := by
  exact (clean_iff rfl).mpr (by decide +kernel)

/-- **A text that jumps back, and an empty field that stays.** A text is dragged and then edited
once more: it ends where texts are created. Of two texts the first one is cleared: it stays on the
photo. -/
theorem text_jumps_back :
    (machine ⟨800, 800⟩).run initial [.createTextAcction 300, .edit "hi", .textFieldShouldReturn,
        .dragged 0 100, .tapped 0 (some 300), .textFieldShouldReturn] =
      some ⟨[⟨"hi", false, 400, 100, none⟩], some 400, false, some 0⟩ ∧
    (machine ⟨800, 800⟩).run initial [.createTextAcction 300, .edit "hi", .textFieldShouldReturn,
        .createTextAcction 300, .edit "ho", .textFieldShouldReturn, .tapped 0 (some 300), .edit "",
        .textFieldShouldReturn] =
      some ⟨[⟨"", false, 460, 400, some 460⟩, ⟨"ho", false, 400, 400, none⟩], some 400, false,
        some 0⟩ := by
  decide +kernel

end UploadScreen

end SnapYak
