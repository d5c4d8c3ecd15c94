import SnapYak.Machine.Simulation
import SnapYak.Screens.Drawing
import SnapYak.Screens.TextOverlays

/-!
# The controls of the upload screen

The upload screen has two layers over the photo, one for drawing and one for texts, of which one
takes touches at a time. The buttons that switch between them, their colours and the two rows of
colour buttons are shown and hidden by the handlers (`MessageUploadViewController.swift`). The
keyboard has a part in this: its notifications show both buttons again, whichever layer is on.

A button that is hidden is not touched, and neither is a layer that is switched off.

## Main definitions

* `UploadControls`, `UploadControls.machine` : the layers and the controls, and their runs.
* `UploadControls.Consistent` : what holds between them in every run.
* `UploadControls.Selected` : the colour buttons that are selected.
* `UploadControls.Available` : what the user can touch.

## Main results

* `UploadControls.step_iff` : what a step is.
* `UploadControls.texts` : the text fields are those of `UploadScreen.machine`.
* `UploadControls.exists_step_iff` : no handler traps.
* `UploadControls.usable_run` : the controls in every run.
-/

namespace SnapYak

/-! ### The text fields can be edited -/

namespace MessageUploadViewController

variable {view : ViewFrame} {vc vc' : MessageUploadViewController}

/-- A field that can be touched. -/
def Touchable (vc : MessageUploadViewController) (i : ℕ) : Prop :=
  ∃ f, vc.textFields[i]? = some f ∧ f.isHidden = false

theorem step_edit {text : String} :
    (UploadScreen.machine view).step vc (.edit text) = some vc' ↔
      vc.keyboardIsVisible = true ∧ ∃ i, vc.activeTextField = some i ∧
        vc.modifyField i (fun f => { f with text := text }) = vc' := by
  simp only [UploadScreen.machine, Option.bind_eq_bind, Option.bind_eq_some_iff]
  by_cases hvisible : vc.keyboardIsVisible = true <;> simp [hvisible]

theorem step_tapped_some {i : ℕ} {keyboard : ℚ} :
    (UploadScreen.machine view).step vc (.tapped i (some keyboard)) = some vc' ↔
      vc.Touchable i ∧ (vc.tapped i).keyboardWillShow view keyboard = vc' := by
  simp only [UploadScreen.machine, Touchable, Option.bind_eq_bind, Option.bind_eq_some_iff]
  grind

theorem step_tapped_none {i : ℕ} :
    (UploadScreen.machine view).step vc (.tapped i none) = some vc' ↔
      vc.Touchable i ∧ vc.keyboardIsVisible = true ∧ vc.tapped i = vc' := by
  simp only [UploadScreen.machine, Touchable, Option.bind_eq_bind, Option.bind_eq_some_iff]
  grind

theorem step_dragged {i : ℕ} {y : ℚ} :
    (UploadScreen.machine view).step vc (.dragged i y) = some vc' ↔
      vc.Touchable i ∧ vc.dragged i y = vc' := by
  simp only [UploadScreen.machine, Touchable, Option.bind_eq_bind, Option.bind_eq_some_iff]
  grind

/-- What the forced unwrappings of the handlers rely on. -/
structure Editable (vc : MessageUploadViewController) : Prop where
  active : ∀ i ∈ vc.activeTextField, i < vc.textFields.length
  visible : vc.keyboardIsVisible = true → ∃ i, vc.activeTextField = some i
  placed : vc.textFields ≠ [] → ∃ y, vc.previousTextFieldY = some y

theorem Editable.modifyField (h : vc.Editable) (i : ℕ) (g : UITextField → UITextField) :
    (vc.modifyField i g).Editable where
  active j hj := by
    rw [length_modifyField]
    exact h.active j hj
  visible := h.visible
  placed hne := by
    refine h.placed fun hnil => hne ?_
    rw [← List.length_eq_zero_iff, length_modifyField, hnil, List.length_nil]

theorem Editable.tapped (h : vc.Editable) {i : ℕ} (htouch : vc.Touchable i) :
    (vc.tapped i).Editable where
  active j hj := by
    obtain ⟨f, hf, -⟩ := htouch
    exact Option.some.inj hj ▸ (List.getElem?_eq_some_iff.mp hf).1
  visible _ := ⟨i, rfl⟩
  placed := h.placed

theorem Editable.keyboardWillShow (h : vc.Editable) {i : ℕ} (hactive : vc.activeTextField = some i)
    (view : ViewFrame) (keyboard : ℚ) : (vc.keyboardWillShow view keyboard).Editable := by
  have hshown : Editable { vc with keyboardIsVisible := true } :=
    ⟨h.active, fun _ => ⟨i, hactive⟩, h.placed⟩
  simp only [MessageUploadViewController.keyboardWillShow]
  split
  · exact hshown.modifyField _ _
  · exact hshown

theorem keyboardWillShow_spec (view : ViewFrame) (keyboard : ℚ)
    (vc : MessageUploadViewController) : (vc.keyboardWillShow view keyboard).keyboardIsVisible =
      true ∧ (vc.keyboardWillShow view keyboard).textFields.length = vc.textFields.length := by
  simp only [keyboardWillShow]
  split
  · exact ⟨rfl, length_modifyField ..⟩
  · exact ⟨rfl, rfl⟩

@[simp] theorem activeTextField_keyboardWillShow (view : ViewFrame) (keyboard : ℚ)
    (vc : MessageUploadViewController) :
    (vc.keyboardWillShow view keyboard).activeTextField = vc.activeTextField := by
  simp only [keyboardWillShow]
  split <;> rfl

theorem length_keyboardWillHide (h : vc.keyboardWillHide = some vc') :
    vc'.textFields.length = vc.textFields.length := by
  obtain ⟨w, hw, rfl⟩ := Option.map_eq_some_iff.mp h
  rw [hideLast, length_modifyField]
  exact (getElem?_putBackActive hw).2.1

/-- The first half of hiding the keyboard changes fields only. -/
theorem Editable.putBackActive (h : vc.Editable) :
    ∃ vc', vc.putBackActive = some vc' ∧ vc'.Editable := by
  simp only [MessageUploadViewController.putBackActive]
  split
  · exact ⟨vc, rfl, h⟩
  · split
    · exact ⟨vc, rfl, h⟩
    · next i _ f hf =>
      split_ifs
      · obtain ⟨y, hy⟩ := h.placed (List.ne_nil_of_mem (List.mem_of_getElem? hf))
        exact ⟨_, by rw [hy, Option.map_some], h.modifyField _ _⟩
      · exact ⟨vc, rfl, h⟩

/-- The keyboard can always be hidden. -/
theorem Editable.keyboardWillHide (h : vc.Editable) :
    ∃ vc', vc.keyboardWillHide = some vc' ∧ vc'.Editable := by
  have hhidden : Editable { vc with keyboardIsVisible := false } :=
    ⟨h.active, fun hvisible => absurd hvisible (by simp), h.placed⟩
  obtain ⟨w, hw, heditable⟩ := hhidden.putBackActive
  refine ⟨w.hideLast, ?_, heditable.modifyField _ _⟩
  rw [MessageUploadViewController.keyboardWillHide, hw, Option.map_some]

theorem Editable.createTextMessage (h : vc.Editable) (view : ViewFrame) (keyboard y : ℚ) :
    ∃ vc', vc.createTextMessage view keyboard y = some vc' ∧ vc'.Editable := by
  simp only [MessageUploadViewController.createTextMessage]
  split_ifs
  · exact h.keyboardWillHide
  · refine ⟨_, rfl, Editable.keyboardWillShow ?_ rfl view keyboard⟩
    constructor <;> simp

/-- The fields stay editable. -/
theorem Editable.step (h : vc.Editable) {e : UploadScreen.Event}
    (ht : (UploadScreen.machine view).step vc e = some vc') : vc'.Editable := by
  cases e with
  | createTextAcction keyboard =>
    obtain ⟨w, hw, heditable⟩ := h.createTextMessage view keyboard (view.maxY / 2)
    obtain rfl := Option.some.inj (hw.symm.trans ht)
    exact heditable
  | edit text =>
    obtain ⟨-, i, -, rfl⟩ := step_edit.mp ht
    exact h.modifyField _ _
  | tapped i keyboard =>
    cases keyboard with
    | some keyboard =>
      obtain ⟨htouch, rfl⟩ := step_tapped_some.mp ht
      exact (h.tapped htouch).keyboardWillShow rfl view keyboard
    | none =>
      obtain ⟨htouch, -, rfl⟩ := step_tapped_none.mp ht
      exact h.tapped htouch
  | dragged i y =>
    obtain ⟨-, rfl⟩ := step_dragged.mp ht
    exact h.modifyField _ _
  | textFieldShouldReturn =>
    simp only [UploadScreen.machine] at ht
    split_ifs at ht
    obtain ⟨w, hw, heditable⟩ := h.keyboardWillHide
    obtain rfl := Option.some.inj (hw.symm.trans ht)
    exact heditable

end MessageUploadViewController

/-! ### The layers and the controls -/

/-- `#colorLiteral`, the blue of a button that is on. -/
def UIColor.lightBlue : UIColor := .colorLiteral 0.2588235438 0.7568627596 0.9686274529 1

/-- `#colorLiteral`, the white of a button that is off. The storyboard and
`keyboardWillHide(notification:)` have `UIColor.white`, of the other colour space. -/
def UIColor.whiteLiteral : UIColor := .colorLiteral 1 1 1 1

/-- `createTextOutlet` and `createDrawingOutlet`. -/
structure ModeButton where
  isHidden : Bool
  titleColor : UIColor
deriving DecidableEq

/-- The upload screen with its layers and controls. -/
structure UploadControls (CGFloat : Type) where
  vc : MessageUploadViewController
  /-- The `textColor` of each text field. -/
  fieldColors : List UIColor
  drawing : DrawScreen CGFloat
  /-- `drawViewOutlet.isUserInteractionEnabled`. -/
  drawEnabled : Bool
  /-- `textViewOutlet.isUserInteractionEnabled`. -/
  textEnabled : Bool
  createText : ModeButton
  createDrawing : ModeButton
  /-- `drawColorButtonsStack.isHidden`. -/
  drawColorsHidden : Bool
  /-- `textColorButtonsStack.isHidden`. -/
  textColorsHidden : Bool
  currentTextColor : UIColor
  textColorButtons : Fin 4 → ColorButton

namespace UploadControls

variable {CGFloat : Type}

/-- `viewDidLoad()`, on the screen of the storyboard. -/
def start : UploadControls CGFloat where
  vc := .initial
  fieldColors := []
  drawing := .start
  drawEnabled := false
  textEnabled := true
  createText := ⟨false, .white⟩
  createDrawing := ⟨false, .white⟩
  drawColorsHidden := true
  textColorsHidden := true
  currentTextColor := DrawScreen.textColors[0]
  textColorButtons := DrawScreen.loadColorButton

/-- `activeTextField.textColor = currentTextColor`, if there is an active field. -/
def colorActive (s : UploadControls CGFloat) : UploadControls CGFloat :=
  match s.vc.activeTextField with
  | some i => { s with fieldColors := s.fieldColors.set i s.currentTextColor }
  | none => s

/-- `keyboardWillShow(notification:)`, for a keyboard of the given height. -/
def keyboardWillShow (view : ViewFrame) (keyboard : ℚ) (s : UploadControls CGFloat) :
    UploadControls CGFloat :=
  colorActive { s with
    vc := s.vc.keyboardWillShow view keyboard
    textColorsHidden := false
    createText := { s.createText with titleColor := .lightBlue }
    createDrawing := { s.createDrawing with titleColor := .whiteLiteral } }

/-- `keyboardWillHide(notification:)`. -/
def keyboardWillHide (s : UploadControls CGFloat) : Option (UploadControls CGFloat) := do
  let vc ← s.vc.keyboardWillHide
  some { s with
    vc := vc
    createText := ⟨false, .white⟩
    createDrawing := ⟨false, .white⟩
    textColorsHidden := true }

/-- The new field of `createTextMessage(x:y:)`. -/
def addTextField (y : ℚ) (s : UploadControls CGFloat) : UploadControls CGFloat :=
  { s with
    vc := { s.vc with
      activeTextField := some s.vc.textFields.length
      textFields := s.vc.textFields ++ [UITextField.create y]
      previousTextFieldY := some y }
    fieldColors := s.fieldColors ++ [s.currentTextColor] }

/-- `createTextMessage(x:y:)`. The new field becomes the first responder, and the keyboard
appears. -/
def createTextMessage (view : ViewFrame) (keyboard y : ℚ) (s : UploadControls CGFloat) :
    Option (UploadControls CGFloat) :=
  if s.vc.keyboardIsVisible then
    keyboardWillHide { s with
      createDrawing := { s.createDrawing with isHidden := false }
      createText := { s.createText with titleColor := .whiteLiteral } }
  else
    let s := (s.addTextField y).keyboardWillShow view keyboard
    some { s with
      createText := { s.createText with titleColor := .lightBlue }
      createDrawing := { s.createDrawing with isHidden := true } }

/-- The text layer is switched on, in `createTextAcction(_:)`. -/
def enableTexts (s : UploadControls CGFloat) : UploadControls CGFloat :=
  { s with
    drawEnabled := false
    textEnabled := true
    createDrawing := { s.createDrawing with titleColor := .whiteLiteral } }

/-- `createTextAcction(_:)`. -/
def createTextAcction (view : ViewFrame) (keyboard : ℚ) (s : UploadControls CGFloat) :
    Option (UploadControls CGFloat) :=
  s.enableTexts.createTextMessage view keyboard (view.maxY / 2)

/-- `createDrawingAction(_:)`. -/
def createDrawingAction (s : UploadControls CGFloat) : UploadControls CGFloat :=
  let s := { s with drawEnabled := !s.drawEnabled }
  if s.drawEnabled then { s with
    createText := { s.createText with isHidden := true }
    drawColorsHidden := false
    textEnabled := false
    createDrawing := { s.createDrawing with titleColor := .lightBlue } }
  else { s with
    createText := { s.createText with isHidden := false }
    drawColorsHidden := true
    textEnabled := true
    createDrawing := { s.createDrawing with titleColor := .whiteLiteral } }

/-- `setTextColorAction(_:)`, for a button with the given tag. With the keyboard visible, a missing
active field traps. -/
def setTextColorAction (s : UploadControls CGFloat) (tag : ℤ) : Option (UploadControls CGFloat) :=
  let buttons j := { s.textColorButtons j with borderColor := UIColor.gray.cgColor }
  let i := DrawScreen.colorIndex tag
  let s := { s with
    currentTextColor := DrawScreen.textColors.get i
    textColorButtons := Function.update buttons i
      { buttons i with borderColor := UIColor.white.cgColor } }
  if s.vc.keyboardIsVisible then s.vc.activeTextField.map fun _ => s.colorActive else some s

/-- What the user does. The number is the height of the keyboard that appears. -/
inductive Event
  | createTextAcction (keyboard : ℚ)
  | createDrawingAction
  | setTextColor (tag : ℤ)
  | setDrawColor (tag : ℤ)
  | edit (text : String)
  | tapped (i : ℕ) (keyboard : Option ℚ)
  | dragged (i : ℕ) (y : ℚ)
  | textFieldShouldReturn

/-- All runs of the screen. -/
def machine (view : ViewFrame) : Machine (UploadControls CGFloat) Event where
  step s
    | .createTextAcction keyboard =>
      if s.createText.isHidden then none else s.createTextAcction view keyboard
    | .createDrawingAction =>
      if s.createDrawing.isHidden then none else some s.createDrawingAction
    | .setTextColor tag => if s.textColorsHidden then none else s.setTextColorAction tag
    | .setDrawColor tag =>
      if s.drawColorsHidden then none
      else some { s with drawing := s.drawing.setDrawColorAction tag }
    | .edit text => do
      let vc ← (UploadScreen.machine view).step s.vc (.edit text)
      some { s with vc := vc }
    | .tapped i keyboard => do
      let vc ← (UploadScreen.machine view).step s.vc (.tapped i keyboard)
      if s.textEnabled then
        match keyboard with
        | some keyboard =>
          some (({ s with vc := s.vc.tapped i } : UploadControls CGFloat).keyboardWillShow view
            keyboard)
        | none => some { s with vc := vc }
      else none
    | .dragged i y => do
      let vc ← (UploadScreen.machine view).step s.vc (.dragged i y)
      if s.textEnabled then some { s with vc := vc } else none
    | .textFieldShouldReturn =>
      if s.vc.keyboardIsVisible then s.keyboardWillHide else none

variable {view : ViewFrame} {s t : UploadControls CGFloat} {e : Event} {es : List Event}

/-! ### The handlers of the keyboard -/

@[simp] theorem vc_colorActive (s : UploadControls CGFloat) : s.colorActive.vc = s.vc := by
  simp only [colorActive]
  split <;> rfl

/-- What `colorActive` changes. -/
theorem colorActive_eq (s : UploadControls CGFloat) :
    ∃ colors, colors.length = s.fieldColors.length ∧
      s.colorActive = { s with fieldColors := colors } := by
  simp only [colorActive]
  split
  · exact ⟨_, List.length_set .., rfl⟩
  · exact ⟨_, rfl, rfl⟩

@[simp] theorem vc_keyboardWillShow (view : ViewFrame) (keyboard : ℚ)
    (s : UploadControls CGFloat) :
    (s.keyboardWillShow view keyboard).vc = s.vc.keyboardWillShow view keyboard :=
  vc_colorActive _

/-- What showing the keyboard changes. -/
theorem keyboardWillShow_eq (view : ViewFrame) (keyboard : ℚ) (s : UploadControls CGFloat) :
    ∃ colors, colors.length = s.fieldColors.length ∧ s.keyboardWillShow view keyboard = { s with
      vc := s.vc.keyboardWillShow view keyboard
      fieldColors := colors
      textColorsHidden := false
      createText := { s.createText with titleColor := .lightBlue }
      createDrawing := { s.createDrawing with titleColor := .whiteLiteral } } := by
  obtain ⟨colors, hlength, heq⟩ := colorActive_eq { s with
    vc := s.vc.keyboardWillShow view keyboard
    textColorsHidden := false
    createText := { s.createText with titleColor := .lightBlue }
    createDrawing := { s.createDrawing with titleColor := .whiteLiteral } }
  exact ⟨colors, hlength, heq⟩

@[simp] theorem drawEnabled_keyboardWillShow (view : ViewFrame) (keyboard : ℚ)
    (s : UploadControls CGFloat) :
    (s.keyboardWillShow view keyboard).drawEnabled = s.drawEnabled := by
  obtain ⟨colors, -, heq⟩ := s.keyboardWillShow_eq view keyboard
  rw [heq]

theorem vc_keyboardWillHide (h : s.keyboardWillHide = some t) :
    s.vc.keyboardWillHide = some t.vc := by
  obtain ⟨vc, hvc, h⟩ := Option.bind_eq_some_iff.mp h
  obtain rfl := Option.some.inj h
  exact hvc

/-- What the text button does: it ends editing, or creates a text. -/
theorem createTextAcction_cases {keyboard : ℚ} (ht : s.createTextAcction view keyboard = some t) :
    (s.vc.keyboardIsVisible = true ∧ keyboardWillHide { s.enableTexts with
      createDrawing := ⟨false, .whiteLiteral⟩
      createText := { s.createText with titleColor := .whiteLiteral } } = some t) ∨
    (s.vc.keyboardIsVisible = false ∧
      ∃ u, u = (s.enableTexts.addTextField (view.maxY / 2)).keyboardWillShow view keyboard ∧
        t = { u with
          createText := { u.createText with titleColor := .lightBlue }
          createDrawing := { u.createDrawing with isHidden := true } }) := by
  simp only [createTextAcction, createTextMessage] at ht
  split_ifs at ht with hvisible
  · exact .inl ⟨hvisible, ht⟩
  · exact .inr ⟨Bool.eq_false_iff.mpr hvisible, _, rfl, (Option.some.inj ht).symm⟩

theorem vc_createTextAcction {keyboard : ℚ} (ht : s.createTextAcction view keyboard = some t) :
    s.vc.createTextAcction view keyboard = some t.vc := by
  simp only [MessageUploadViewController.createTextAcction,
    MessageUploadViewController.createTextMessage]
  rcases createTextAcction_cases ht with ⟨hvisible, ht⟩ | ⟨hvisible, u, rfl, rfl⟩
  · rw [if_pos hvisible]
    have hhide := vc_keyboardWillHide ht
    exact hhide
  · rw [if_neg (by simp [hvisible]), vc_keyboardWillShow]
    rfl

/-- A colour button for texts changes the selection, and the colour of the active field. -/
theorem setTextColorAction_eq {tag : ℤ} (ht : s.setTextColorAction tag = some t) :
    ∃ colors, colors.length = s.fieldColors.length ∧ t = { s with
      currentTextColor := t.currentTextColor
      textColorButtons := t.textColorButtons
      fieldColors := colors } := by
  simp only [setTextColorAction] at ht
  split_ifs at ht
  · obtain ⟨i, -, rfl⟩ := Option.map_eq_some_iff.mp ht
    obtain ⟨colors, hlength, heq⟩ := colorActive_eq _
    rw [heq]
    exact ⟨colors, hlength, rfl⟩
  · obtain rfl := Option.some.inj ht
    exact ⟨_, rfl, rfl⟩

/-- **What a step is.** -/
theorem step_iff : (machine view).step s e = some t ↔ match e with
    | .createTextAcction keyboard =>
      s.createText.isHidden = false ∧ s.createTextAcction view keyboard = some t
    | .createDrawingAction => s.createDrawing.isHidden = false ∧ s.createDrawingAction = t
    | .setTextColor tag => s.textColorsHidden = false ∧ s.setTextColorAction tag = some t
    | .setDrawColor tag =>
      s.drawColorsHidden = false ∧ { s with drawing := s.drawing.setDrawColorAction tag } = t
    | .edit text => s.vc.keyboardIsVisible = true ∧ ∃ i, s.vc.activeTextField = some i ∧
      { s with vc := s.vc.modifyField i fun f => { f with text := text } } = t
    | .tapped i (some keyboard) => s.textEnabled = true ∧ s.vc.Touchable i ∧
      ({ s with vc := s.vc.tapped i } : UploadControls CGFloat).keyboardWillShow view keyboard = t
    | .tapped i none => s.textEnabled = true ∧ s.vc.Touchable i ∧ s.vc.keyboardIsVisible = true ∧
      { s with vc := s.vc.tapped i } = t
    | .dragged i y => s.textEnabled = true ∧ s.vc.Touchable i ∧
      { s with vc := s.vc.dragged i y } = t
    | .textFieldShouldReturn => s.vc.keyboardIsVisible = true ∧ s.keyboardWillHide = some t := by
  cases e with
  | edit text =>
    simp only [machine, Option.bind_eq_bind, Option.bind_eq_some_iff,
      MessageUploadViewController.step_edit]
    constructor
    · rintro ⟨vc, ⟨hvisible, i, hi, rfl⟩, ht⟩
      exact ⟨hvisible, i, hi, Option.some.inj ht⟩
    · rintro ⟨hvisible, i, hi, rfl⟩
      exact ⟨_, ⟨hvisible, i, hi, rfl⟩, rfl⟩
  | tapped i keyboard =>
    cases keyboard with
    | none =>
      simp only [machine, Option.bind_eq_bind, Option.bind_eq_some_iff,
        MessageUploadViewController.step_tapped_none]
      cases s.textEnabled <;> simp [and_assoc]
    | some keyboard =>
      simp only [machine, Option.bind_eq_bind, Option.bind_eq_some_iff,
        MessageUploadViewController.step_tapped_some]
      cases s.textEnabled <;> simp
  | dragged i y =>
    simp only [machine, Option.bind_eq_bind, Option.bind_eq_some_iff,
      MessageUploadViewController.step_dragged]
    cases s.textEnabled <;> simp
  | createTextAcction keyboard => simp [machine]
  | createDrawingAction => simp [machine]
  | setTextColor tag => simp [machine]
  | setDrawColor tag => simp [machine]
  | textFieldShouldReturn => simp [machine]

/-- The text fields of the screen. -/
def textEvent : Event → Option UploadScreen.Event
  | .createTextAcction keyboard => some (.createTextAcction keyboard)
  | .edit text => some (.edit text)
  | .tapped i keyboard => some (.tapped i keyboard)
  | .dragged i y => some (.dragged i y)
  | .textFieldShouldReturn => some .textFieldShouldReturn
  | .createDrawingAction | .setTextColor _ | .setDrawColor _ => none

/-- **The text fields are those of the upload screen.** -/
def texts (view : ViewFrame) :
    Machine.Simulation (machine view : Machine (UploadControls CGFloat) Event)
      (UploadScreen.machine view) where
  inv _ := True
  map := vc
  label _ := textEvent
  inv_step _ _ := trivial
  run_step {s e t} _ ht := by
    cases e with
    | createTextAcction keyboard =>
      exact Machine.run_singleton_eq_some.mpr (vc_createTextAcction (step_iff.mp ht).2)
    | createDrawingAction =>
      obtain ⟨-, rfl⟩ := step_iff.mp ht
      simp only [createDrawingAction]
      split_ifs <;> rfl
    | setTextColor tag =>
      obtain ⟨colors, -, heq⟩ := setTextColorAction_eq (step_iff.mp ht).2
      rw [heq]
      rfl
    | setDrawColor tag =>
      obtain ⟨-, rfl⟩ := step_iff.mp ht
      rfl
    | edit text =>
      obtain ⟨hvisible, i, hi, rfl⟩ := step_iff.mp ht
      exact Machine.run_singleton_eq_some.mpr
        (MessageUploadViewController.step_edit.mpr ⟨hvisible, i, hi, rfl⟩)
    | tapped i keyboard =>
      refine Machine.run_singleton_eq_some.mpr ?_
      cases keyboard with
      | none =>
        obtain ⟨-, htouch, hvisible, rfl⟩ := step_iff.mp ht
        exact MessageUploadViewController.step_tapped_none.mpr ⟨htouch, hvisible, rfl⟩
      | some keyboard =>
        obtain ⟨-, htouch, rfl⟩ := step_iff.mp ht
        rw [vc_keyboardWillShow]
        exact MessageUploadViewController.step_tapped_some.mpr ⟨htouch, rfl⟩
    | dragged i y =>
      obtain ⟨-, htouch, rfl⟩ := step_iff.mp ht
      exact Machine.run_singleton_eq_some.mpr
        (MessageUploadViewController.step_dragged.mpr ⟨htouch, rfl⟩)
    | textFieldShouldReturn =>
      obtain ⟨hvisible, ht⟩ := step_iff.mp ht
      refine Machine.run_singleton_eq_some.mpr ?_
      simp only [UploadScreen.machine, hvisible, ↓reduceIte, vc_keyboardWillHide ht]

/-! ### The controls in every run -/

/-- What holds between the layers and the controls. -/
structure Consistent (s : UploadControls CGFloat) : Prop where
  /-- One layer takes touches. -/
  layers : s.textEnabled = !s.drawEnabled
  textColors : s.textColorsHidden = !s.vc.keyboardIsVisible
  titleColor : s.createText.titleColor = if s.vc.keyboardIsVisible then .lightBlue else .white
  drawColors : s.drawEnabled = true → s.drawColorsHidden = false
  createText : s.createText.isHidden = true → s.drawEnabled = true
  createDrawing : s.createDrawing.isHidden = true →
    s.drawEnabled = false ∧ s.vc.keyboardIsVisible = true
  fieldColors : s.fieldColors.length = s.vc.textFields.length

/-- What hiding the keyboard needs of the layers. -/
theorem consistent_keyboardWillHide (hlayers : s.textEnabled = !s.drawEnabled)
    (hcolors : s.drawEnabled = true → s.drawColorsHidden = false)
    (hlength : s.fieldColors.length = s.vc.textFields.length) (ht : s.keyboardWillHide = some t) :
    t.Consistent := by
  obtain ⟨vc, hvc, ht⟩ := Option.bind_eq_some_iff.mp ht
  obtain rfl := Option.some.inj ht
  have hvisible := (MessageUploadViewController.getElem?_keyboardWillHide hvc).1
  constructor
  · exact hlayers
  · simp only [hvisible, Bool.not_false]
  · simp only [hvisible, Bool.false_eq_true, ↓reduceIte]
  · exact hcolors
  · intro h
    exact absurd h (by simp)
  · intro h
    exact absurd h (by simp)
  · exact hlength.trans (MessageUploadViewController.length_keyboardWillHide hvc).symm

/-- What showing the keyboard needs of the layers. -/
theorem consistent_keyboardWillShow (hdraw : s.drawEnabled = false) (htext : s.textEnabled = true)
    (hcreate : s.createText.isHidden = false)
    (hlength : s.fieldColors.length = s.vc.textFields.length) (view : ViewFrame) (keyboard : ℚ) :
    (s.keyboardWillShow view keyboard).Consistent := by
  obtain ⟨colors, hcolors, heq⟩ := s.keyboardWillShow_eq view keyboard
  obtain ⟨hvisible, hfields⟩ := MessageUploadViewController.keyboardWillShow_spec view keyboard s.vc
  rw [heq]
  constructor
  · simp only [hdraw, htext, Bool.not_false]
  · simp only [hvisible, Bool.not_true]
  · simp only [hvisible, ↓reduceIte]
  · intro h
    exact absurd h (by simp [hdraw])
  · intro h
    exact absurd h (by simp [hcreate])
  · intro _
    exact ⟨hdraw, hvisible⟩
  · exact hcolors.trans (hlength.trans hfields.symm)

theorem Consistent.drawEnabled_eq_false (h : s.Consistent) (htext : s.textEnabled = true) :
    s.drawEnabled = false := by
  have hlayers := h.layers
  rw [htext] at hlayers
  simpa using hlayers.symm

/-- A change of the fields. -/
theorem Consistent.setFields (h : s.Consistent) {vc : MessageUploadViewController}
    (hvisible : vc.keyboardIsVisible = s.vc.keyboardIsVisible)
    (hlength : vc.textFields.length = s.vc.textFields.length) :
    ({ s with vc := vc } : UploadControls CGFloat).Consistent where
  layers := h.layers
  textColors := h.textColors.trans (by rw [hvisible])
  titleColor := h.titleColor.trans (by rw [hvisible])
  drawColors := h.drawColors
  createText := h.createText
  createDrawing hhidden := ⟨(h.createDrawing hhidden).1, hvisible.trans (h.createDrawing hhidden).2⟩
  fieldColors := h.fieldColors.trans hlength.symm

/-- The drawing button makes room for the keyboard. -/
theorem Consistent.hideDrawing (h : s.Consistent) (hdraw : s.drawEnabled = false)
    (hvisible : s.vc.keyboardIsVisible = true) : Consistent { s with
      createText := { s.createText with titleColor := .lightBlue }
      createDrawing := { s.createDrawing with isHidden := true } } :=
  { h with
    titleColor := (if_pos hvisible).symm
    createDrawing := fun _ => ⟨hdraw, hvisible⟩ }

/-- **The controls stay consistent.** -/
theorem Consistent.step (h : s.Consistent) (ht : (machine view).step s e = some t) :
    t.Consistent := by
  cases e with
  | createTextAcction keyboard =>
    obtain ⟨hshown, ht⟩ := step_iff.mp ht
    rcases createTextAcction_cases ht with ⟨-, ht⟩ | ⟨-, u, rfl, rfl⟩
    · refine consistent_keyboardWillHide ?_ ?_ ?_ ht
      · rfl
      · intro hdraw
        exact absurd hdraw (by simp [enableTexts])
      · exact h.fieldColors
    · refine Consistent.hideDrawing (consistent_keyboardWillShow ?_ ?_ ?_ ?_ view keyboard) ?_ ?_
      · rfl
      · rfl
      · exact hshown
      · simp only [addTextField, enableTexts, List.length_append, h.fieldColors,
          List.length_singleton]
      · exact drawEnabled_keyboardWillShow ..
      · rw [vc_keyboardWillShow]
        exact (MessageUploadViewController.keyboardWillShow_spec ..).1
  | createDrawingAction =>
    obtain ⟨hshown, rfl⟩ := step_iff.mp ht
    simp only [createDrawingAction]
    split_ifs with hdraw
    · exact { h with
        layers := by simp only [hdraw, Bool.not_true]
        drawColors := fun _ => rfl
        createText := fun _ => hdraw
        createDrawing := fun hhidden => absurd hhidden (by simp [hshown]) }
    · exact { h with
        layers := by simp only [Bool.not_eq_true] at hdraw; simp only [hdraw, Bool.not_false]
        drawColors := fun hon => absurd hon hdraw
        createText := fun hhidden => absurd hhidden (by simp)
        createDrawing := fun hhidden => absurd hhidden (by simp [hshown]) }
  | setTextColor tag =>
    obtain ⟨colors, hlength, heq⟩ := setTextColorAction_eq (step_iff.mp ht).2
    rw [heq]
    exact { h with fieldColors := hlength.trans h.fieldColors }
  | setDrawColor tag =>
    obtain ⟨-, rfl⟩ := step_iff.mp ht
    exact { h with }
  | edit text =>
    obtain ⟨-, i, -, rfl⟩ := step_iff.mp ht
    exact h.setFields rfl (MessageUploadViewController.length_modifyField ..)
  | tapped i keyboard =>
    cases keyboard with
    | none =>
      obtain ⟨-, -, -, rfl⟩ := step_iff.mp ht
      exact h.setFields rfl rfl
    | some keyboard =>
      obtain ⟨htext, -, rfl⟩ := step_iff.mp ht
      have hdraw := h.drawEnabled_eq_false htext
      have hcreate : s.createText.isHidden = false := by
        by_contra hhidden
        exact absurd (h.createText (by simpa using hhidden)) (by simp [hdraw])
      refine consistent_keyboardWillShow ?_ ?_ ?_ ?_ view keyboard
      · exact hdraw
      · exact htext
      · exact hcreate
      · exact h.fieldColors
  | dragged i y =>
    obtain ⟨-, -, rfl⟩ := step_iff.mp ht
    exact h.setFields rfl (MessageUploadViewController.length_modifyField ..)
  | textFieldShouldReturn =>
    exact consistent_keyboardWillHide h.layers h.drawColors h.fieldColors (step_iff.mp ht).2

/-- What the user can do: touch a button that is shown, a visible field of a layer that takes
touches, and the keyboard while it is there. -/
def Available (s : UploadControls CGFloat) : Event → Prop
  | .createTextAcction _ => s.createText.isHidden = false
  | .createDrawingAction => s.createDrawing.isHidden = false
  | .setTextColor _ => s.textColorsHidden = false
  | .setDrawColor _ => s.drawColorsHidden = false
  | .edit _ | .textFieldShouldReturn => s.vc.keyboardIsVisible = true
  | .tapped i keyboard => s.textEnabled = true ∧ s.vc.Touchable i ∧
      (keyboard = none → s.vc.keyboardIsVisible = true)
  | .dragged i _ => s.textEnabled = true ∧ s.vc.Touchable i

theorem exists_keyboardWillHide (h : s.vc.Editable) : ∃ t, s.keyboardWillHide = some t := by
  obtain ⟨vc, hvc, -⟩ := h.keyboardWillHide
  exact ⟨_, Option.bind_eq_some_iff.mpr ⟨vc, hvc, rfl⟩⟩

/-- **No handler traps.** Whatever the user can touch can be touched. -/
theorem exists_step_iff (heditable : s.vc.Editable) (h : s.Consistent) :
    (∃ t, (machine view).step s e = some t) ↔ s.Available e := by
  simp only [step_iff]
  cases e with
  | createTextAcction keyboard =>
    refine ⟨fun ⟨_, hshown, _⟩ => hshown, fun hshown => ?_⟩
    simp only [createTextAcction, createTextMessage]
    split_ifs
    · obtain ⟨t, ht⟩ := exists_keyboardWillHide (s := { s.enableTexts with
        createDrawing := ⟨false, .whiteLiteral⟩
        createText := { s.createText with titleColor := .whiteLiteral } }) heditable
      exact ⟨t, hshown, ht⟩
    · exact ⟨_, hshown, rfl⟩
  | setTextColor tag =>
    refine ⟨fun ⟨_, hshown, _⟩ => hshown, fun hshown => ?_⟩
    have hvisible : s.vc.keyboardIsVisible = true := by
      have hcolors := h.textColors.symm.trans hshown
      simpa using hcolors
    obtain ⟨i, hi⟩ := heditable.visible hvisible
    simp only [setTextColorAction, hvisible, ↓reduceIte, hi, Option.map_some]
    exact ⟨_, hshown, rfl⟩
  | edit text =>
    refine ⟨fun ⟨_, hvisible, _⟩ => hvisible, fun hvisible => ?_⟩
    obtain ⟨i, hi⟩ := heditable.visible hvisible
    exact ⟨_, hvisible, i, hi, rfl⟩
  | tapped i keyboard => cases keyboard <;> simp [Available]
  | textFieldShouldReturn =>
    refine ⟨fun ⟨_, hvisible, _⟩ => hvisible, fun hvisible => ?_⟩
    obtain ⟨t, ht⟩ := exists_keyboardWillHide heditable
    exact ⟨t, hvisible, ht⟩
  | createDrawingAction | setDrawColor tag | dragged i y => simp [Available]

/-! ### The colour buttons -/

/-- The colour buttons, with the white border at the selected one. -/
def colorButtons (k : Option (Fin 4)) (i : Fin 4) : ColorButton :=
  { DrawScreen.loadColorButton i with
    borderColor := if k = some i then UIColor.white.cgColor else UIColor.gray.cgColor }

/-- Selecting a button takes the border away from all others. -/
theorem update_colorButtons (k : Option (Fin 4)) (i : Fin 4) :
    Function.update (fun j => { colorButtons k j with borderColor := UIColor.gray.cgColor }) i
      { colorButtons k i with borderColor := UIColor.white.cgColor } = colorButtons (some i) := by
  funext j
  by_cases hij : j = i
  · subst hij
    simp [colorButtons]
  · simp [colorButtons, hij, Ne.symm hij]

theorem drawColorButtons_setDrawColorAction {s : DrawScreen CGFloat} {k : Option (Fin 4)}
    (h : s.drawColorButtons = .ofFn (colorButtons k)) (tag : ℤ) :
    (s.setDrawColorAction tag).drawColorButtons =
      .ofFn (colorButtons (some (DrawScreen.colorIndex tag))) := by
  simp only [DrawScreen.setDrawColorAction, h]
  ext j hj
  by_cases hij : (DrawScreen.colorIndex tag : ℕ) = j
  · subst hij
    simp [colorButtons]
  · have hne : DrawScreen.colorIndex tag ≠ ⟨j, hj⟩ := fun h => hij (congrArg Fin.val h)
    simp [colorButtons, hij, hne]

/-- The buttons at two positions, or none, are selected for texts and for strokes. -/
structure Selected (s : UploadControls CGFloat) (k k' : Option (Fin 4)) : Prop where
  textColorButtons : s.textColorButtons = colorButtons k
  currentTextColor : s.currentTextColor = DrawScreen.textColors.get (k.getD 0)
  drawColorButtons : s.drawing.drawColorButtons = .ofFn (colorButtons k')
  drawColor : s.drawing.drawView.drawColor =
    some (k'.elim .black DrawScreen.drawColors.get)

/-- The button that an event selects for texts. -/
def selectsText : Event → Option (Fin 4)
  | .setTextColor tag => some (DrawScreen.colorIndex tag)
  | _ => none

/-- The button that an event selects for strokes. -/
def selectsDraw : Event → Option (Fin 4)
  | .setDrawColor tag => some (DrawScreen.colorIndex tag)
  | _ => none

theorem Selected.congr {k k' : Option (Fin 4)} (h : s.Selected k k')
    (hbuttons : t.textColorButtons = s.textColorButtons)
    (hcolor : t.currentTextColor = s.currentTextColor) (hdrawing : t.drawing = s.drawing) :
    t.Selected k k' where
  textColorButtons := hbuttons.trans h.textColorButtons
  currentTextColor := hcolor.trans h.currentTextColor
  drawColorButtons := hdrawing ▸ h.drawColorButtons
  drawColor := hdrawing ▸ h.drawColor

theorem Selected.colorActive {k k' : Option (Fin 4)} (h : s.Selected k k') :
    s.colorActive.Selected k k' := by
  obtain ⟨colors, -, heq⟩ := s.colorActive_eq
  rw [heq]
  exact h.congr rfl rfl rfl

theorem Selected.keyboardWillShow {k k' : Option (Fin 4)} (h : s.Selected k k') (view : ViewFrame)
    (keyboard : ℚ) : (s.keyboardWillShow view keyboard).Selected k k' := by
  obtain ⟨colors, -, heq⟩ := s.keyboardWillShow_eq view keyboard
  rw [heq]
  exact h.congr rfl rfl rfl

theorem Selected.keyboardWillHide {k k' : Option (Fin 4)} (h : s.Selected k k')
    (ht : s.keyboardWillHide = some t) : t.Selected k k' := by
  obtain ⟨vc, -, ht⟩ := Option.bind_eq_some_iff.mp ht
  obtain rfl := Option.some.inj ht
  exact h.congr rfl rfl rfl

/-- A touch of a colour button selects it, and nothing else does. -/
theorem Selected.step {k k' : Option (Fin 4)} (h : s.Selected k k')
    (ht : (machine view).step s e = some t) :
    t.Selected ((selectsText e).or k) ((selectsDraw e).or k') := by
  cases e with
  | createTextAcction keyboard =>
    rcases createTextAcction_cases (step_iff.mp ht).2 with ⟨-, ht⟩ | ⟨-, u, rfl, rfl⟩
    · refine Selected.keyboardWillHide ?_ ht
      exact h.congr rfl rfl rfl
    · have hadded : (s.enableTexts.addTextField (view.maxY / 2)).Selected k k' :=
        h.congr rfl rfl rfl
      exact (hadded.keyboardWillShow view keyboard).congr rfl rfl rfl
  | createDrawingAction =>
    obtain ⟨-, rfl⟩ := step_iff.mp ht
    simp only [createDrawingAction]
    split_ifs <;> exact h.congr rfl rfl rfl
  | setTextColor tag =>
    have hselected : Selected { s with
        currentTextColor := DrawScreen.textColors.get (DrawScreen.colorIndex tag)
        textColorButtons := colorButtons (some (DrawScreen.colorIndex tag)) }
        (some (DrawScreen.colorIndex tag)) k' :=
      ⟨rfl, rfl, h.drawColorButtons, h.drawColor⟩
    have ht := (step_iff.mp ht).2
    simp only [setTextColorAction, h.textColorButtons, update_colorButtons] at ht
    split_ifs at ht
    · obtain ⟨i, -, rfl⟩ := Option.map_eq_some_iff.mp ht
      exact hselected.colorActive
    · obtain rfl := Option.some.inj ht
      exact hselected
  | setDrawColor tag =>
    obtain ⟨-, rfl⟩ := step_iff.mp ht
    exact ⟨h.textColorButtons, h.currentTextColor,
      drawColorButtons_setDrawColorAction h.drawColorButtons tag, rfl⟩
  | edit text =>
    obtain ⟨-, i, -, rfl⟩ := step_iff.mp ht
    exact h.congr rfl rfl rfl
  | tapped i keyboard =>
    cases keyboard with
    | none =>
      obtain ⟨-, -, -, rfl⟩ := step_iff.mp ht
      exact h.congr rfl rfl rfl
    | some keyboard =>
      obtain ⟨-, -, rfl⟩ := step_iff.mp ht
      refine Selected.keyboardWillShow ?_ view keyboard
      exact h.congr rfl rfl rfl
  | dragged i y =>
    obtain ⟨-, -, rfl⟩ := step_iff.mp ht
    exact h.congr rfl rfl rfl
  | textFieldShouldReturn => exact h.keyboardWillHide (step_iff.mp ht).2

/-- The selected buttons are those touched last. -/
theorem selected_run (hrun : (machine view).run start es = some t) :
    t.Selected (es.filterMap selectsText).getLast? (es.filterMap selectsDraw).getLast? := by
  induction es using List.reverseRecOn generalizing t with
  | nil =>
    obtain rfl := Option.some.inj hrun
    exact ⟨rfl, rfl, rfl, rfl⟩
  | append_singleton es e ih =>
    obtain ⟨u, hu, ht⟩ := Machine.run_append_eq_some.mp hrun
    have hstep := (ih hu).step (Machine.run_singleton_eq_some.mp ht)
    rw [List.filterMap_append, List.filterMap_append, List.getLast?_append, List.getLast?_append]
    cases e <;> simpa [selectsText, selectsDraw] using hstep

/-! ### Runs of the screen -/

theorem editable_step (h : s.vc.Editable) (ht : (machine view).step s e = some t) :
    t.vc.Editable :=
  Machine.run_invariant (fun h ht => h.step ht) h ((texts view).run_step trivial ht)

theorem consistent_run (hrun : (machine view).run start es = some t) :
    t.vc.Editable ∧ t.Consistent := by
  have heditable : (start : UploadControls CGFloat).vc.Editable := by
    constructor <;> simp [start, MessageUploadViewController.initial]
  have hconsistent : (start : UploadControls CGFloat).Consistent := by
    constructor <;> simp [start, MessageUploadViewController.initial]
  exact ⟨Machine.run_invariant (I := fun s => s.vc.Editable) editable_step heditable hrun,
    Machine.run_invariant (fun h ht => h.step ht) hconsistent hrun⟩

/-- **The upload screen works.** In every run one of the two layers takes touches and one of the two
mode buttons is shown; the colour buttons for texts are shown while the keyboard is; the selected
colours and the borders are those of the buttons touched last; and whatever the user can touch next
has a handler that does not trap. -/
theorem usable_run (hrun : (machine view).run start es = some t) :
    t.Consistent ∧ (t.createText.isHidden = false ∨ t.createDrawing.isHidden = false) ∧
      t.Selected (es.filterMap selectsText).getLast? (es.filterMap selectsDraw).getLast? ∧
      ∀ e, (∃ u, (machine view).step t e = some u) ↔ t.Available e := by
  obtain ⟨heditable, hconsistent⟩ := consistent_run hrun
  refine ⟨hconsistent, ?_, selected_run hrun, fun e => exists_step_iff heditable hconsistent⟩
  by_contra hhidden
  simp only [not_or, Bool.not_eq_false] at hhidden
  have hdraw := hconsistent.createText hhidden.1
  exact absurd hdraw (by simp [(hconsistent.createDrawing hhidden.2).1])

/-- A colour is chosen for a text, the text is tapped again, and drawing begins with the keyboard
still there: the text button is hidden, and the return key works. -/
theorem usable_run_drawing_with_keyboard :
    ∃ t u : UploadControls ℕ, (machine ⟨800, 800⟩).run start [.createTextAcction 300,
        .setTextColor 2, .edit "hi", .textFieldShouldReturn, .tapped 0 (some 300),
        .createDrawingAction] = some t ∧
      t.createText.isHidden = true ∧ t.createDrawing.isHidden = false ∧
      t.currentTextColor = DrawScreen.textColors.get 2 ∧
      (machine ⟨800, 800⟩).step t .textFieldShouldReturn = some u := by
  obtain ⟨t, hrun⟩ : ∃ t : UploadControls ℕ, (machine ⟨800, 800⟩).run start [
      .createTextAcction 300, .setTextColor 2, .edit "hi", .textFieldShouldReturn,
      .tapped 0 (some 300), .createDrawingAction] = some t := ⟨_, rfl⟩
  obtain ⟨-, hshown, hselected, havailable⟩ := usable_run hrun
  obtain rfl := Option.some.inj hrun
  obtain ⟨u, hu⟩ := (havailable .textFieldShouldReturn).mpr rfl
  exact ⟨_, u, rfl, rfl, hshown.resolve_left (by decide), hselected.currentTextColor, hu⟩

end UploadControls

end SnapYak
