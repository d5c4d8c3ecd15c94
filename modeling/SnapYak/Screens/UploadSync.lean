import SnapYak.Screens.UploadControls

/-!
# What the upload screen shows

The drawing controls of the upload screen are to show which of its layers is on, and the text that
is edited is to have the selected colour. No method sees to it in one place
(`MessageUploadViewController.swift`): `keyboardWillHide(notification:)` shows the text button and
makes the drawing button white, whichever layer is on, and `tapped(sender:)` makes a field the
active one and leaves its colour to the notification of the keyboard.

## Main definitions

* `UploadControls.InSync`, `UploadControls.ReturnsToTexts` : the drawing controls are right, and the
  steps that leave them so.
* `UploadControls.Colored`, `UploadControls.TapsColored` : the text that is edited has the selected
  colour, and the steps that leave it so.

## Main results

* `UploadControls.inSync_iff` : the runs in which the drawing controls are right.
* `UploadControls.colored_iff` : the runs in which the text that is edited has the selected colour.
-/

namespace SnapYak

namespace UploadControls

variable {CGFloat : Type} {view : ViewFrame} {s t : UploadControls CGFloat} {e : Event}
  {es : List Event}

/-! ### The drawing controls -/

/-- The title colours of the drawing button: blue while it is on, and white of either colour space
while it is off. -/
def ShowsDrawing (enabled : Bool) (titleColor : UIColor) : Prop :=
  if enabled then titleColor = .lightBlue else titleColor = .white ∨ titleColor = .whiteLiteral

/-- The drawing controls show which layer is on: the colours for strokes are shown, and the text
button is hidden, exactly while the drawing layer takes touches, and the drawing button is blue
exactly then. -/
def InSync (s : UploadControls CGFloat) : Prop :=
  s.drawColorsHidden = (!s.drawEnabled) ∧ s.createText.isHidden = s.drawEnabled ∧
    ShowsDrawing s.drawEnabled s.createDrawing.titleColor

/-- The return key is not pressed while the drawing layer is on. -/
def ReturnsToTexts (s : UploadControls CGFloat) : Event → Prop
  | .textFieldShouldReturn => s.drawEnabled = false
  | _ => True

instance (s : UploadControls CGFloat) : (e : Event) → Decidable (ReturnsToTexts s e)
  | .textFieldShouldReturn => inferInstanceAs (Decidable (_ = _))
  | .createTextAcction _ | .createDrawingAction | .setTextColor _ | .setDrawColor _ | .edit _
  | .tapped .. | .dragged .. => isTrue trivial

/-- While the text layer is on, showing the keyboard leaves the drawing controls right. -/
theorem inSync_keyboardWillShow (hsync : s.InSync) (hdraw : s.drawEnabled = false)
    (view : ViewFrame) (keyboard : ℚ) : (s.keyboardWillShow view keyboard).InSync := by
  obtain ⟨colors, -, heq⟩ := s.keyboardWillShow_eq view keyboard
  rw [heq]
  exact ⟨hsync.1, hsync.2.1, by simp [ShowsDrawing, hdraw]⟩

/-- Hiding the keyboard shows the text button, whichever layer is on. -/
theorem inSync_keyboardWillHide_iff (hcolors : s.drawColorsHidden = !s.drawEnabled)
    (ht : s.keyboardWillHide = some t) : t.InSync ↔ s.drawEnabled = false := by
  obtain ⟨vc, -, ht⟩ := Option.bind_eq_some_iff.mp ht
  obtain rfl := Option.some.inj ht
  simp only [InSync]
  constructor
  · rintro ⟨-, hcreate, -⟩
    exact hcreate.symm
  · intro hdraw
    exact ⟨hcolors, hdraw.symm, by simp [ShowsDrawing, hdraw]⟩

theorem inSync_step_iff (h : s.Consistent ∧ s.InSync) (ht : (machine view).step s e = some t) :
    t.InSync ↔ ReturnsToTexts s e := by
  obtain ⟨hconsistent, hsync⟩ := h
  cases e with
  | createTextAcction keyboard =>
    refine iff_of_true ?_ trivial
    obtain ⟨hshown, ht⟩ := step_iff.mp ht
    have hdraw : s.drawEnabled = false := hsync.2.1.symm.trans hshown
    have hcolors : s.drawColorsHidden = true := by simpa [hdraw] using hsync.1
    rcases createTextAcction_cases ht with ⟨-, ht⟩ | ⟨-, u, rfl, rfl⟩
    · exact (inSync_keyboardWillHide_iff hcolors ht).mpr rfl
    · have hadded : (s.enableTexts.addTextField (view.maxY / 2)).InSync :=
        ⟨hcolors, hshown, Or.inr rfl⟩
      exact inSync_keyboardWillShow hadded rfl view keyboard
  | createDrawingAction =>
    obtain ⟨-, rfl⟩ := step_iff.mp ht
    refine iff_of_true ?_ trivial
    simp only [createDrawingAction]
    split_ifs with hdraw <;> simp [InSync, ShowsDrawing, hdraw]
  | setTextColor tag =>
    obtain ⟨colors, -, heq⟩ := setTextColorAction_eq (step_iff.mp ht).2
    rw [heq]
    exact iff_of_true hsync trivial
  | setDrawColor tag =>
    obtain ⟨-, rfl⟩ := step_iff.mp ht
    exact iff_of_true hsync trivial
  | edit text =>
    obtain ⟨-, i, -, rfl⟩ := step_iff.mp ht
    exact iff_of_true hsync trivial
  | tapped i keyboard =>
    cases keyboard with
    | none =>
      obtain ⟨-, -, -, rfl⟩ := step_iff.mp ht
      exact iff_of_true hsync trivial
    | some keyboard =>
      obtain ⟨htext, -, rfl⟩ := step_iff.mp ht
      have htapped : ({ s with vc := s.vc.tapped i } : UploadControls CGFloat).InSync := hsync
      have hdraw := hconsistent.drawEnabled_eq_false htext
      exact iff_of_true (inSync_keyboardWillShow htapped hdraw view keyboard) trivial
  | dragged i y =>
    obtain ⟨-, -, rfl⟩ := step_iff.mp ht
    exact iff_of_true hsync trivial
  | textFieldShouldReturn => exact inSync_keyboardWillHide_iff hsync.1 (step_iff.mp ht).2

/-- **The drawing controls.** In every state of a run the drawing controls show which layer is on,
if and only if the return key is never pressed while the drawing layer is. -/
theorem inSync_iff
    (hrun : (machine view : Machine (UploadControls CGFloat) Event).run start es = some t) :
    (machine view : Machine (UploadControls CGFloat) Event).Visits InSync start es ↔
      (machine view : Machine (UploadControls CGFloat) Event).Along ReturnsToTexts start es := by
  have hsync : (start : UploadControls CGFloat).InSync := ⟨rfl, rfl, Or.inl rfl⟩
  have hconsistent : (start : UploadControls CGFloat).Consistent :=
    (consistent_run ((machine view).run_nil start)).2
  refine Machine.visits_iff_along_of_invariant (I := fun s => s.Consistent ∧ s.InSync)
    (fun h ht => ?_) ⟨hconsistent, hsync⟩ hsync hrun
  have hiff := inSync_step_iff h ht
  exact ⟨hiff, fun hA => ⟨h.1.step ht, hiff.mpr hA⟩⟩

/-- Drawing begins with the keyboard still there, and the return key is pressed: the drawing
controls are wrong. -/
theorem inSync_iff_return_while_drawing :
    ¬(machine ⟨800, 800⟩).Visits InSync (start : UploadControls ℕ) [.createTextAcction 300,
      .edit "hi", .textFieldShouldReturn, .tapped 0 (some 300), .createDrawingAction,
      .textFieldShouldReturn] := by
  intro hvisits
  exact absurd ((inSync_iff rfl).mp hvisits) (by decide +kernel)

/-! ### The colour of the text that is edited -/

/-- The field that is edited has the selected colour. -/
def Colored (s : UploadControls CGFloat) : Prop :=
  s.vc.keyboardIsVisible = true →
    ∀ i ∈ s.vc.activeTextField, s.fieldColors[i]? = some s.currentTextColor

/-- A field that is tapped without a notification of the keyboard has the selected colour. -/
def TapsColored (s : UploadControls CGFloat) : Event → Prop
  | .tapped i none => s.fieldColors[i]? = some s.currentTextColor
  | _ => True

instance (s : UploadControls CGFloat) : (e : Event) → Decidable (TapsColored s e)
  | .tapped _ none => inferInstanceAs (Decidable (_ = _))
  | .createTextAcction _ | .createDrawingAction | .setTextColor _ | .setDrawColor _ | .edit _
  | .tapped _ (some _) | .dragged .. | .textFieldShouldReturn => isTrue trivial

theorem colored_colorActive (h : ∀ i ∈ s.vc.activeTextField, i < s.fieldColors.length) :
    s.colorActive.Colored := by
  intro _ i hi
  rw [vc_colorActive] at hi
  simp only [colorActive, Option.mem_def.mp hi]
  exact List.getElem?_set_self (h i hi)

theorem colored_keyboardWillHide (ht : s.keyboardWillHide = some t) : t.Colored := by
  intro hvisible
  have hhidden := (MessageUploadViewController.getElem?_keyboardWillHide (vc_keyboardWillHide ht)).1
  exact absurd hvisible (by simp [hhidden])

theorem colored_keyboardWillShow (h : ∀ i ∈ s.vc.activeTextField, i < s.fieldColors.length)
    (view : ViewFrame) (keyboard : ℚ) : (s.keyboardWillShow view keyboard).Colored := by
  refine colored_colorActive fun i hi => h i ?_
  exact (MessageUploadViewController.activeTextField_keyboardWillShow ..).symm.trans hi

theorem colored_step_iff (heditable : s.vc.Editable) (h : s.Consistent ∧ s.Colored)
    (ht : (machine view).step s e = some t) : t.Colored ↔ TapsColored s e := by
  obtain ⟨hconsistent, hcolored⟩ := h
  have hactive {vc : MessageUploadViewController} (hvc : vc.Editable)
      (hlength : vc.textFields.length = s.vc.textFields.length) :
      ∀ i ∈ vc.activeTextField, i < s.fieldColors.length := by
    intro i hi
    rw [hconsistent.fieldColors, ← hlength]
    exact hvc.active i hi
  cases e with
  | createTextAcction keyboard =>
    refine iff_of_true ?_ trivial
    rcases createTextAcction_cases (step_iff.mp ht).2 with ⟨-, ht⟩ | ⟨-, u, rfl, rfl⟩
    · exact colored_keyboardWillHide ht
    · have hadded : ∀ i ∈ (s.enableTexts.addTextField (view.maxY / 2)).vc.activeTextField,
          i < (s.enableTexts.addTextField (view.maxY / 2)).fieldColors.length := by
        intro i hi
        obtain rfl := Option.some.inj hi
        simp [addTextField, enableTexts, hconsistent.fieldColors]
      exact colored_keyboardWillShow hadded view keyboard
  | createDrawingAction =>
    obtain ⟨-, rfl⟩ := step_iff.mp ht
    refine iff_of_true ?_ trivial
    simp only [createDrawingAction]
    split_ifs <;> exact hcolored
  | setTextColor tag =>
    refine iff_of_true ?_ trivial
    have ht := (step_iff.mp ht).2
    simp only [setTextColorAction] at ht
    split_ifs at ht with hvisible
    · obtain ⟨i, -, rfl⟩ := Option.map_eq_some_iff.mp ht
      exact colored_colorActive (hactive heditable rfl)
    · obtain rfl := Option.some.inj ht
      exact fun hv => absurd hv hvisible
  | setDrawColor tag =>
    obtain ⟨-, rfl⟩ := step_iff.mp ht
    exact iff_of_true hcolored trivial
  | edit text =>
    obtain ⟨-, i, -, rfl⟩ := step_iff.mp ht
    exact iff_of_true hcolored trivial
  | tapped i keyboard =>
    cases keyboard with
    | none =>
      obtain ⟨-, -, hvisible, rfl⟩ := step_iff.mp ht
      exact ⟨fun h => h hvisible i rfl, fun h _ j hj => Option.some.inj hj ▸ h⟩
    | some keyboard =>
      obtain ⟨-, htouch, rfl⟩ := step_iff.mp ht
      have htapped := hactive (heditable.tapped htouch) rfl
      exact iff_of_true (colored_keyboardWillShow htapped view keyboard) trivial
  | dragged i y =>
    obtain ⟨-, -, rfl⟩ := step_iff.mp ht
    exact iff_of_true hcolored trivial
  | textFieldShouldReturn =>
    exact iff_of_true (colored_keyboardWillHide (step_iff.mp ht).2) trivial

/-- **The colour of the text that is edited.** In every state of a run the text that is edited has
the selected colour, if and only if every text that is tapped without a notification of the keyboard
has it already. -/
theorem colored_iff
    (hrun : (machine view : Machine (UploadControls CGFloat) Event).run start es = some t) :
    (machine view : Machine (UploadControls CGFloat) Event).Visits Colored start es ↔
      (machine view : Machine (UploadControls CGFloat) Event).Along TapsColored start es := by
  have hcolored : (start : UploadControls CGFloat).Colored := fun hvisible =>
    absurd hvisible (by simp [start, MessageUploadViewController.initial])
  have hstart := consistent_run ((machine view).run_nil (start : UploadControls CGFloat))
  refine Machine.visits_iff_along_of_invariant
    (I := fun s => s.vc.Editable ∧ s.Consistent ∧ s.Colored) (fun {s e t} h ht => ?_)
    ⟨hstart.1, hstart.2, hcolored⟩ hcolored hrun
  have hiff := colored_step_iff h.1 h.2 ht
  exact ⟨hiff, fun hA => ⟨editable_step h.1 ht, h.2.1.step ht, hiff.mpr hA⟩⟩

/-- A second text is tapped while a first one is edited in another colour: it keeps its colour. -/
theorem colored_iff_second_text_tapped :
    ¬(machine ⟨800, 800⟩).Visits Colored (start : UploadControls ℕ) [.createTextAcction 300,
      .edit "hi", .textFieldShouldReturn, .createTextAcction 300, .edit "ho", .setTextColor 2,
      .tapped 0 none] := by
  intro hvisits
  exact absurd ((colored_iff rfl).mp hvisits) (by decide +kernel)

end UploadControls

end SnapYak
