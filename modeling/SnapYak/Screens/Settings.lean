import SnapYak.Numerals.Decimal
import SnapYak.Screens.MessagesList

/-!
# The settings screen

The settings screen shows the stored radius in a text field and stores what the text stands for.
Only digits can be typed, but the field shows a printed number at first, with a point or an
exponent, and any part of it can be deleted: what remains of `1e-05` may be `-05`.

A text of the field begins with a minus sign only if this is the sign of an exponent in front of
which everything was deleted. The radius that is stored is therefore never negative unless such a
text is saved (`SettingsScreen.nonnegative_iff`).

## Main definitions

* `SettingsScreen.machine` : the screen is loaded, its text edited, and the radius saved.
* `SettingsScreen.Nonnegative` : the stored radius is a number and not negative.
* `SettingsScreen.Shortened` : the text is a printed number, with other digits and without some of
  its other characters.

## Main results

* `SettingsScreen.nonnegative_iff` : the runs in which the stored radius is never negative.
* `SettingsScreen.negative_radius_saved` : a run in which it is.
-/

namespace SnapYak

namespace SettingsViewController

/-- `textField(_:shouldChangeCharactersIn:replacementString:)`. -/
def shouldChangeCharacters (string : String) : Bool :=
  string.toList.all fun c => "0123456789".toList.contains c

/-- The text after a range of it is replaced. -/
def replaceCharacters (text : String) (location length : ℕ) (string : String) : String :=
  String.ofList
    (text.toList.take location ++ string.toList ++ text.toList.drop (location + length))

/-- Only digits can be typed. -/
theorem isDigit_of_shouldChangeCharacters {string : String}
    (h : shouldChangeCharacters string = true) : ∀ c ∈ string.toList, c.isDigit := by
  intro c hc
  have hdigits : "0123456789".toList.Forall fun c => c.isDigit := by decide
  have hmem : c ∈ "0123456789".toList := by simpa using List.all_eq_true.mp h c hc
  exact List.forall_iff_forall_mem.mp hdigits c hmem

end SettingsViewController

open SettingsViewController

/-- The settings screen; `text` is `nil` before `viewDidLoad`. All its characters are in ASCII, so
that a range counts them. -/
structure SettingsScreen where
  defaults : UserDefaults Binary64
  text : Option String

namespace SettingsScreen

/-- What the user does on the settings screen. -/
inductive Event
  /-- The screen is loaded, after a launch. -/
  | viewDidLoad
  /-- A range of the text is replaced, if the field allows it. -/
  | edit (location length : ℕ) (string : String)
  | saveRadius

/-- The screen on a device that has no radius stored. -/
def initial (defaults : UserDefaults Binary64) : SettingsScreen :=
  ⟨{ defaults with radius := none }, none⟩

/-- All runs of the settings screen. -/
def machine : Machine SettingsScreen Event where
  step s
    | .viewDidLoad =>
      let (radius, defaults) := SettingsViewController.viewDidLoad s.defaults
      some ⟨defaults, some (Decimal.description radius)⟩
    | .edit location length string => do
      let text ← s.text
      if location + length ≤ text.toList.length then
        some { s with text := some (
          if shouldChangeCharacters string then replaceCharacters text location length string
          else text) }
      else none
    | .saveRadius => do
      let text ← s.text
      some { s with defaults := saveRadius s.defaults (Decimal.parse text) }

/-- The stored radius, if there is one, is a number and not negative. -/
def Nonnegative (s : SettingsScreen) : Prop :=
  ∀ radius, s.defaults.radius = some radius → 0 ≤ radius

/-- The text is a printed number whose digits were replaced, and some of whose other characters were
deleted. -/
def Shortened (s : SettingsScreen) : Prop :=
  ∀ text, s.text = some text → Decimal.Printed (Decimal.marks text.toList)

/-- No text is saved that begins with a minus sign and has a digit other than `0`. -/
def SavesNoMinus (s : SettingsScreen) : Event → Prop
  | .saveRadius => ∀ text ∈ s.text, ¬Decimal.IsNegative text
  | _ => True

instance decidableSavesNoMinus (s : SettingsScreen) : (e : Event) → Decidable (s.SavesNoMinus e)
  | .viewDidLoad | .edit .. => isTrue trivial
  | .saveRadius => inferInstanceAs (Decidable (∀ text ∈ s.text, ¬Decimal.IsNegative text))

/-! ### What a step does to the text and to the radius -/

variable {s t : SettingsScreen} {e : Event}

/-- The radius that is shown is not negative, nor the one that is stored then. -/
theorem Nonnegative.loadRadius (hs : s.Nonnegative) :
    0 ≤ (loadRadius s.defaults).1 ∧
      ∀ radius, (SnapYak.loadRadius s.defaults).2.radius = some radius → 0 ≤ radius := by
  have hdefault : (0 : Binary64) ≤ 10000000 := Binary64.zero_le_finite.mpr (by norm_num)
  simp only [SnapYak.loadRadius]
  split_ifs with hzero
  · refine ⟨hdefault, fun radius h => ?_⟩
    obtain rfl := Option.some.inj h
    exact hdefault
  · refine ⟨?_, hs⟩
    cases hradius : s.defaults.radius with
    | none => exact le_refl 0
    | some radius => exact hs radius hradius

/-- An edit leaves some of the characters that are not digits. -/
theorem marks_replaceCharacters_sublist {text string : String} (location length : ℕ)
    (h : shouldChangeCharacters string = true) :
    (Decimal.marks (replaceCharacters text location length string).toList).Sublist
      (Decimal.marks text.toList) := by
  have hstring : Decimal.marks string.toList = [] :=
    Decimal.marks_eq_nil_iff.mpr (isDigit_of_shouldChangeCharacters h)
  have hdrop : (text.toList.drop (location + length)).Sublist (text.toList.drop location) := by
    rw [← List.drop_drop]
    exact List.drop_sublist ..
  rw [replaceCharacters, String.toList_ofList, Decimal.marks_append, Decimal.marks_append, hstring,
    List.append_nil]
  have hsplit : Decimal.marks text.toList =
      Decimal.marks (text.toList.take location) ++ Decimal.marks (text.toList.drop location) := by
    rw [← Decimal.marks_append, List.take_append_drop]
  rw [hsplit]
  exact (hdrop.filter _).append_left _

/-- The text stays a shortened number, and the radius becomes negative only by saving one. -/
theorem nonnegative_step_iff (hs : s.Shortened ∧ s.Nonnegative) (ht : machine.step s e = some t) :
    (t.Nonnegative ↔ s.SavesNoMinus e) ∧ (s.SavesNoMinus e → t.Shortened ∧ t.Nonnegative) := by
  obtain ⟨htext, hradius⟩ := hs
  cases e with
  | viewDidLoad =>
    obtain rfl := Option.some.inj ht
    obtain ⟨hshown, hstored⟩ := hradius.loadRadius
    refine ⟨iff_of_true hstored trivial, fun _ => ⟨fun text h => ?_, hstored⟩⟩
    obtain rfl := Option.some.inj h
    exact Decimal.printed_description hshown
  | edit location length string =>
    simp only [machine, Option.bind_eq_bind, Option.bind_eq_some_iff] at ht
    obtain ⟨text, hsome, ht⟩ := ht
    split_ifs at ht with hrange hchange
    · obtain rfl := Option.some.inj ht
      refine ⟨iff_of_true hradius trivial, fun _ => ⟨fun text' h => ?_, hradius⟩⟩
      obtain rfl := Option.some.inj h
      exact (htext text hsome).sublist (marks_replaceCharacters_sublist location length hchange)
    · obtain rfl := Option.some.inj ht
      refine ⟨iff_of_true hradius trivial, fun _ => ⟨fun text' h => ?_, hradius⟩⟩
      obtain rfl := Option.some.inj h
      exact htext text hsome
  | saveRadius =>
    simp only [machine, Option.bind_eq_bind, Option.bind_eq_some_iff] at ht
    obtain ⟨text, hsome, ht⟩ := ht
    obtain rfl := Option.some.inj ht
    have hparse := Decimal.zero_le_parse_iff (htext text hsome)
    have hsaves : s.SavesNoMinus .saveRadius ↔ ¬Decimal.IsNegative text := by
      simp only [SavesNoMinus, hsome, Option.mem_def, Option.some.injEq, forall_eq']
    have hiff : (Nonnegative { s with defaults := saveRadius s.defaults (Decimal.parse text) }) ↔
        s.SavesNoMinus .saveRadius := by
      rw [hsaves, ← hparse]
      cases hresult : Decimal.parse text with
      | none => exact iff_of_true hradius (by simp)
      | some radius => exact Iff.rfl
    exact ⟨hiff, fun h => ⟨htext, hiff.mpr h⟩⟩

/-- **The stored radius.** On a device that has no radius stored at first, the stored radius is a
number that is not negative in every state of a run exactly when the run saves no text that begins
with a minus sign and has a digit other than `0`. -/
theorem nonnegative_iff (defaults : UserDefaults Binary64) {es : List Event}
    (ht : machine.run (initial defaults) es = some t) :
    machine.Visits Nonnegative (initial defaults) es ↔
      machine.Along SavesNoMinus (initial defaults) es := by
  refine Machine.visits_iff_along_of_invariant (I := fun s => s.Shortened ∧ s.Nonnegative)
    nonnegative_step_iff ⟨?_, ?_⟩ ?_ ht
  · intro text h
    simp [initial] at h
  · intro radius h
    simp [initial] at h
  · intro radius h
    simp [initial] at h

/-- The radius `0.00001` is saved and shown again as `1e-05`, and what follows the `1` is
deleted. -/
theorem nonnegative_small_radius :
    machine.Visits Nonnegative (initial .empty) [.viewDidLoad, .edit 0 8 "0", .edit 2 1 "00001",
      .saveRadius, .viewDidLoad, .edit 1 4 "", .saveRadius] := by
  have hrun : (machine.run (initial .empty) [.viewDidLoad, .edit 0 8 "0", .edit 2 1 "00001",
      .saveRadius, .viewDidLoad, .edit 1 4 "", .saveRadius]).isSome := by
    decide +kernel
  obtain ⟨t, ht⟩ := Option.isSome_iff_exists.mp hrun
  exact (nonnegative_iff .empty ht).mpr (by decide +kernel)

/-- **A negative radius.** The radius `0.00001` is saved and shown again as `1e-05`. The first two
characters are deleted and the rest is saved: the stored radius is `-5`. -/
theorem negative_radius_saved :
    ∃ t, machine.run (initial .empty) [.viewDidLoad, .edit 0 8 "0", .edit 2 1 "00001", .saveRadius,
        .viewDidLoad, .edit 0 2 "", .saveRadius] = some t ∧
      t.defaults.radius = some (Binary64.round (-5)) ∧ ¬t.Nonnegative := by
  have hradius : (machine.run (initial .empty) [.viewDidLoad, .edit 0 8 "0", .edit 2 1 "00001",
      .saveRadius, .viewDidLoad, .edit 0 2 "", .saveRadius]).map (fun t => t.defaults.radius) =
      some (some (Binary64.round (-5))) := by
    decide +kernel
  obtain ⟨t, ht, hstored⟩ := Option.map_eq_some_iff.mp hradius
  refine ⟨t, ht, hstored, fun h => ?_⟩
  exact absurd (h _ hstored) (by decide +kernel)

end SettingsScreen

end SnapYak
