import Mathlib.Algebra.Order.Field.Power
import Mathlib.Data.List.DropRight
import SnapYak.Numerals.Binary64

/-!
# Decimal literals

Binary64 numbers are read from decimal literals and printed as such. A literal is rounded to the
nearest number. A number is printed with the fewest digits that are read back as the same number,
in exponent form if it is smaller than `10 ^ (-4)` or greater than `2 ^ 53`.

Hexadecimal literals and the payload of a NaN are left out.

## Main definitions

* `Decimal.parse` : the number that a text stands for, if any.
* `Decimal.description` : the text of a number.
* `Decimal.marks`, `Decimal.Printed` : the characters of a text that are not digits, and those of a
  printed number.

## Main results

* `Decimal.printed_description` : the characters of a printed number that are not digits.
* `Decimal.zero_le_parse_iff` : the sign of a printed number after digits were replaced and other
  characters deleted.
-/

namespace Decimal

open Binary64

/-! ### Reading -/

/-- The value of a digit. -/
def digitValue (c : Char) : ℕ := c.toNat - '0'.toNat

/-- The number that digits write. -/
def value (ds : List Char) : ℕ := ds.foldl (fun n c => 10 * n + digitValue c) 0

/-- An optional sign. -/
def parseSign : List Char → Bool × List Char
  | '-' :: cs => (true, cs)
  | '+' :: cs => (false, cs)
  | cs => (false, cs)

/-- An optional exponent, up to the end of the text. -/
def parseExponent : List Char → Option ℤ
  | [] => some 0
  | c :: cs =>
    let (negative, ds) := parseSign cs
    if (c = 'e' ∨ c = 'E') ∧ ds ≠ [] ∧ ds.all Char.isDigit then
      some (if negative then -value ds else value ds)
    else none

/-- A literal without a sign: digits with an optional point among them, and an exponent. -/
def parseUnsigned (cs : List Char) : Option ℚ :=
  let whole := cs.takeWhile Char.isDigit
  let (fraction, rest) := match cs.dropWhile Char.isDigit with
    | '.' :: rest => (rest.takeWhile Char.isDigit, rest.dropWhile Char.isDigit)
    | rest => ([], rest)
  if whole = [] ∧ fraction = [] then none
  else (parseExponent rest).map fun exponent : ℤ =>
    (value (whole ++ fraction) : ℚ) * 10 ^ (exponent - (fraction.length : ℤ))

/-- The letters of a word in lower case. -/
def lower (cs : List Char) : String := String.ofList (cs.map Char.toLower)

/-- The number that a text stands for. -/
def parse (text : String) : Option Binary64 :=
  let (negative, cs) := parseSign text.toList
  if lower cs = "inf" ∨ lower cs = "infinity" then some (infinity negative)
  else if lower cs = "nan" then some nan
  else (parseUnsigned cs).map fun q => Binary64.round (if negative then -q else q)

/-! ### Printing -/

/-- The decimal with `n + 1` digits that is nearest to a positive number, by its digits and the
exponent of the last one. -/
def nearest (q : ℚ) (n : ℕ) : ℕ × ℤ :=
  ((roundEven (q / 10 ^ (Int.log 10 q - n))).toNat, Int.log 10 q - n)

/-- The decimal with `n + 1` digits on the other side of a positive number. -/
def opposite (q : ℚ) (n : ℕ) : ℕ × ℤ :=
  let floor := ⌊q / 10 ^ (Int.log 10 q - n)⌋.toNat
  (if (nearest q n).1 = floor then floor + 1 else floor, Int.log 10 q - n)

/-- The shortest decimal that rounds to a positive number, and of several the nearest one. There is
one with 17 digits. -/
def shortest (q : ℚ) : ℕ × ℤ :=
  let candidates := (List.range 17).flatMap fun n => [nearest q n, opposite q n]
  (candidates.find? fun p => rounded (p.1 * 10 ^ p.2) = q).getD (nearest q 16)

/-- The digits of a positive number, without zeros at the end, and the place of the point among
them. -/
def digits (q : ℚ) : List Char × ℤ :=
  let (c, e) := shortest q
  ((Nat.toDigits 10 c).rdropWhile (· = '0'), (Nat.toDigits 10 c).length + e)

/-- An exponent has at least two digits. -/
def formatExponent (e : ℤ) : List Char :=
  (if e < 0 then '-' else '+') ::
    ((if e.natAbs < 10 then ['0'] else []) ++ Nat.toDigits 10 e.natAbs)

/-- The exponent form. -/
def formatExponential (ds : List Char) (point : ℤ) : List Char :=
  ds.take 1 ++ (if ds.length ≤ 1 then [] else '.' :: ds.drop 1) ++ 'e' :: formatExponent (point - 1)

/-- The plain form. -/
def formatDecimal (ds : List Char) (point : ℤ) : List Char :=
  if point ≤ 0 then '0' :: '.' :: (List.replicate (-point).toNat '0' ++ ds)
  else if ds.length ≤ point then ds ++ List.replicate (point.toNat - ds.length) '0' ++ ['.', '0']
  else ds.take point.toNat ++ '.' :: ds.drop point.toNat

/-- The text of a positive number. -/
def format (q : ℚ) : List Char :=
  let (ds, point) := digits q
  if point < -3 ∨ 2 ^ 53 < q then formatExponential ds point else formatDecimal ds point

/-- The text of a number. -/
def description : Binary64 → String
  | nan => "nan"
  | infinity negative => if negative then "-inf" else "inf"
  | finite q _ =>
    if q = 0 then "0.0"
    else if q < 0 then String.ofList ('-' :: format (-q))
    else String.ofList (format q)

/-! ### The sign of a literal -/

theorem digitValue_eq_zero_iff {c : Char} (h : c.isDigit) : digitValue c = 0 ↔ c = '0' := by
  obtain ⟨hlow, -⟩ := Char.isDigit_iff_toNat.mp h
  rw [digitValue, ← Char.toNat_inj]
  omega

theorem toLower_of_isDigit {c : Char} (h : c.isDigit) : c.toLower = c := by
  obtain ⟨-, hhigh⟩ := Char.isDigit_iff_toNat.mp h
  refine dif_neg fun hupper => ?_
  have hle : 'A'.toNat ≤ c.toNat := UInt32.le_iff_toNat_le.mp hupper.1
  exact absurd (hle.trans hhigh) (by decide)

theorem value_eq_zero_iff {ds : List Char} (h : ∀ c ∈ ds, c.isDigit) :
    value ds = 0 ↔ ∀ c ∈ ds, c = '0' := by
  have hfold (n : ℕ) : ds.foldl (fun n c => 10 * n + digitValue c) n = 0 ↔
      n = 0 ∧ ∀ c ∈ ds, c = '0' := by
    induction ds generalizing n with
    | nil => simp
    | cons c ds ih =>
      have hc : digitValue c = 0 ↔ c = '0' := digitValue_eq_zero_iff (h c List.mem_cons_self)
      rw [List.foldl_cons, ih fun c' hc' => h c' (List.mem_cons_of_mem _ hc'), List.forall_mem_cons,
        ← hc, ← and_assoc]
      exact and_congr_left fun _ => by omega
  exact (hfold 0).trans (by simp only [true_and])

theorem parse_eq (text : String) : parse text =
    if lower (parseSign text.toList).2 = "inf" ∨ lower (parseSign text.toList).2 = "infinity" then
      some (infinity (parseSign text.toList).1)
    else if lower (parseSign text.toList).2 = "nan" then some nan
    else (parseUnsigned (parseSign text.toList).2).map fun q =>
      Binary64.round (if (parseSign text.toList).1 then -q else q) :=
  rfl

theorem parseUnsigned_eq (cs : List Char) : ∃ whole fraction : List Char, ∃ rest : List Char,
    parseUnsigned cs = if whole = [] ∧ fraction = [] then none
      else (parseExponent rest).map fun exponent : ℤ =>
        (value (whole ++ fraction) : ℚ) * 10 ^ (exponent - (fraction.length : ℤ)) :=
  ⟨_, _, _, rfl⟩

theorem zero_le_of_parseUnsigned {cs : List Char} {q : ℚ} (h : parseUnsigned cs = some q) :
    0 ≤ q := by
  obtain ⟨whole, fraction, rest, heq⟩ := parseUnsigned_eq cs
  rw [heq] at h
  split_ifs at h
  obtain ⟨exponent, -, rfl⟩ := Option.map_eq_some_iff.mp h
  positivity

theorem parseSign_fst_of_ne {cs : List Char} (h : cs.head? ≠ some '-') :
    (parseSign cs).1 = false := by
  rcases cs with _ | ⟨c, cs⟩
  · rfl
  · simp only [parseSign]
    split <;> simp_all

theorem parseSign_snd_subset (cs : List Char) : (parseSign cs).2 ⊆ cs := by
  rcases cs with _ | ⟨c, cs⟩
  · exact List.Subset.refl _
  · simp only [parseSign]
    split <;> simp_all

/-- Without a minus sign, a literal stands for no negative number. -/
theorem zero_le_of_parse {text : String} {x : Binary64} (hx : parse text = some x)
    (hsign : (parseSign text.toList).1 = false) : x = nan ∨ 0 ≤ x := by
  rw [parse_eq, hsign] at hx
  simp only [Bool.false_eq_true, if_false] at hx
  split_ifs at hx
  · obtain rfl := Option.some.inj hx
    exact Or.inr (zero_le_infinity.mpr rfl)
  · exact Or.inl (Option.some.inj hx).symm
  · obtain ⟨q, hq, rfl⟩ := Option.map_eq_some_iff.mp hx
    exact Or.inr (zero_le_round (zero_le_of_parseUnsigned hq))

/-- A text that stands for NaN has an `a`. -/
theorem mem_of_parse_eq_nan {text : String} (hx : parse text = some nan) :
    ∃ c ∈ text.toList, c.toLower = 'a' := by
  rw [parse_eq] at hx
  split_ifs at hx with hinf hnan
  · simp at hx
  · have hmap := congrArg String.toList hnan
    rw [lower, String.toList_ofList] at hmap
    have hmem : 'a' ∈ (parseSign text.toList).2.map Char.toLower := by
      rw [hmap]
      decide
    obtain ⟨c, hc, hlower⟩ := List.mem_map.mp hmem
    exact ⟨c, parseSign_snd_subset _ hc, hlower⟩
  all_goals
    obtain ⟨q, -, hround⟩ := Option.map_eq_some_iff.mp hx
    exact absurd hround (round_ne_nan _)

/-- An integer with a minus sign. -/
theorem parse_minus {ds : List Char} (hds : ∀ c ∈ ds, c.isDigit) {text : String}
    (htext : text.toList = '-' :: ds) :
    parse text = if ds = [] then none else some (Binary64.round (-value ds)) := by
  have hlower : ds.map Char.toLower = ds :=
    (List.map_congr_left fun c hc => toLower_of_isDigit (hds c hc)).trans (List.map_id _)
  have hne (word : String) (hword : 'n' ∈ word.toList) : lower ds ≠ word := by
    rintro rfl
    rw [lower, hlower, String.toList_ofList] at hword
    exact absurd (hds _ hword) (by decide)
  have hinfinite : ¬(lower ds = "inf" ∨ lower ds = "infinity") := by
    rintro (h | h)
    · exact hne _ (by decide) h
    · exact hne _ (by decide) h
  have htake : ds.takeWhile Char.isDigit = ds := List.takeWhile_eq_self_iff.mpr hds
  have hdrop : ds.dropWhile Char.isDigit = [] := List.dropWhile_eq_nil_iff.mpr hds
  have hunsigned : parseUnsigned ds = if ds = [] then none else some (value ds : ℚ) := by
    simp only [parseUnsigned, htake, hdrop, List.append_nil, and_true, parseExponent,
      List.length_nil, Nat.cast_zero, sub_zero, Option.map_some, zpow_zero, mul_one]
  rw [parse_eq, htext]
  show (if lower ds = "inf" ∨ lower ds = "infinity" then some (infinity true)
    else if lower ds = "nan" then some nan
    else (parseUnsigned ds).map fun q => Binary64.round (-q)) = _
  rw [if_neg hinfinite, if_neg (hne "nan" (by decide)), hunsigned]
  split_ifs
  · rfl
  · rfl

/-! ### The characters of a literal -/

/-- The characters of a text that are not digits. -/
def marks (cs : List Char) : List Char := cs.filter fun c => !c.isDigit

theorem marks_append (cs cs' : List Char) : marks (cs ++ cs') = marks cs ++ marks cs' :=
  List.filter_append ..

theorem marks_cons_of_not_isDigit {c : Char} (h : ¬c.isDigit) (cs : List Char) :
    marks (c :: cs) = c :: marks cs :=
  List.filter_cons_of_pos (by simpa using h)

theorem marks_cons_of_isDigit {c : Char} (h : c.isDigit) (cs : List Char) :
    marks (c :: cs) = marks cs :=
  List.filter_cons_of_neg (by simpa using h)

theorem marks_eq_nil_iff {cs : List Char} : marks cs = [] ↔ ∀ c ∈ cs, c.isDigit := by
  simp [marks, List.filter_eq_nil_iff]

theorem isDigit_of_mem_digits {q : ℚ} : ∀ c ∈ (digits q).1, c.isDigit := by
  intro c hc
  exact Nat.isDigit_of_mem_toDigits (by decide) (by decide) ((List.rdropWhile_prefix _ _).subset hc)

theorem isDigit_of_mem_replicate {n : ℕ} : ∀ c ∈ List.replicate n '0', c.isDigit := by
  intro c hc
  rw [List.eq_of_mem_replicate hc]
  decide

/-- The marks of an exponent: its sign. -/
theorem marks_formatExponent (e : ℤ) :
    marks (formatExponent e) = [if e < 0 then '-' else '+'] := by
  have hdigits :
      marks ((if e.natAbs < 10 then ['0'] else []) ++ Nat.toDigits 10 e.natAbs) = [] := by
    refine marks_eq_nil_iff.mpr fun c hc => ?_
    rcases List.mem_append.mp hc with hc | hc
    · split_ifs at hc <;> simp_all
    · exact Nat.isDigit_of_mem_toDigits (by decide) (by decide) hc
  rw [formatExponent, marks_cons_of_not_isDigit (by split_ifs <;> decide), hdigits]

theorem marks_formatExponential {ds : List Char} (hds : ∀ c ∈ ds, c.isDigit) (point : ℤ) :
    marks (formatExponential ds point) =
      (if ds.length ≤ 1 then [] else ['.']) ++ ['e', if point - 1 < 0 then '-' else '+'] := by
  have htake : marks (ds.take 1) = [] :=
    marks_eq_nil_iff.mpr fun c hc => hds c (List.mem_of_mem_take hc)
  have hdrop : marks (ds.drop 1) = [] :=
    marks_eq_nil_iff.mpr fun c hc => hds c (List.mem_of_mem_drop hc)
  rw [formatExponential, marks_append, marks_append, htake, List.nil_append,
    marks_cons_of_not_isDigit (by decide), marks_formatExponent]
  congr 1
  split_ifs with hlength
  · rfl
  · rw [marks_cons_of_not_isDigit (by decide), hdrop]

theorem marks_formatDecimal {ds : List Char} (hds : ∀ c ∈ ds, c.isDigit) (point : ℤ) :
    marks (formatDecimal ds point) = ['.'] := by
  have hzeros (n : ℕ) : marks (List.replicate n '0') = [] :=
    marks_eq_nil_iff.mpr isDigit_of_mem_replicate
  have hnil : marks ds = [] := marks_eq_nil_iff.mpr hds
  rw [formatDecimal]
  split_ifs
  · rw [marks_cons_of_isDigit (by decide), marks_cons_of_not_isDigit (by decide), marks_append,
      hzeros, hnil]
    rfl
  · rw [marks_append, marks_append, hzeros, hnil]
    rfl
  · have htake : marks (ds.take point.toNat) = [] :=
      marks_eq_nil_iff.mpr fun c hc => hds c (List.mem_of_mem_take hc)
    have hdrop : marks (ds.drop point.toNat) = [] :=
      marks_eq_nil_iff.mpr fun c hc => hds c (List.mem_of_mem_drop hc)
    rw [marks_append, marks_cons_of_not_isDigit (by decide), htake, hdrop]
    rfl

/-- The marks of a literal that was printed and then shortened: some of those of an exponent form,
with either sign of the exponent, or some of the letters of infinity. -/
def Printed (ms : List Char) : Prop :=
  ms.Sublist ['.', 'e', '+'] ∨ ms.Sublist ['.', 'e', '-'] ∨ ms.Sublist ['i', 'n', 'f']

theorem Printed.sublist {ms ms' : List Char} (h : Printed ms) (hsub : ms'.Sublist ms) :
    Printed ms' := by
  rcases h with h | h | h
  · exact Or.inl (hsub.trans h)
  · exact Or.inr (Or.inl (hsub.trans h))
  · exact Or.inr (Or.inr (hsub.trans h))

theorem printed_format (q : ℚ) : Printed (marks (format q)) := by
  simp only [format]
  split_ifs
  · rw [marks_formatExponential isDigit_of_mem_digits]
    split_ifs
    · exact Or.inr (Or.inl (by decide))
    · exact Or.inl (by decide)
    · exact Or.inr (Or.inl (by decide))
    · exact Or.inl (by decide)
  · rw [marks_formatDecimal isDigit_of_mem_digits]
    exact Or.inl (by decide)

/-- **The characters of a printed number.** A number that is not negative is printed without a
minus sign, except for that of an exponent. -/
theorem printed_description {x : Binary64} (hx : 0 ≤ x) :
    Printed (marks (description x).toList) := by
  cases x with
  | nan => exact absurd hx not_zero_le_nan
  | infinity negative =>
    obtain rfl := zero_le_infinity.mp hx
    exact Or.inr (Or.inr (by decide))
  | finite q h =>
    have hq : ¬q < 0 := not_lt.mpr (zero_le_finite.mp hx)
    rw [description, if_neg hq]
    split_ifs
    · exact Or.inl (by decide)
    · rw [String.toList_ofList]
      exact printed_format q

/-! ### Shortened literals -/

/-- A text begins with a minus sign and has a digit other than `0`. -/
def IsNegative (text : String) : Prop :=
  text.toList.head? = some '-' ∧ ∃ c ∈ text.toList, c.isDigit ∧ c ≠ '0'

instance (text : String) : Decidable (IsNegative text) :=
  inferInstanceAs (Decidable (_ ∧ ∃ c ∈ text.toList, c.isDigit ∧ c ≠ '0'))

/-- A minus sign in front is the last mark of a shortened literal. -/
theorem Printed.eq_nil_of_minus {ms : List Char} (h : Printed ('-' :: ms)) : ms = [] := by
  rcases h with h | h | h
  · exact absurd (h.subset List.mem_cons_self) (by decide)
  · have he := h.of_cons_of_ne (by decide)
    have hminus := he.of_cons_of_ne (by decide)
    exact List.sublist_nil.mp (List.cons_sublist_cons.mp hminus)
  · exact absurd (h.subset List.mem_cons_self) (by decide)

/-- No letter of a shortened literal is an `a`. -/
theorem Printed.toLower_ne {cs : List Char} (h : Printed (marks cs)) {c : Char} (hc : c ∈ cs) :
    c.toLower ≠ 'a' := by
  by_cases hdigit : c.isDigit
  · rw [toLower_of_isDigit hdigit]
    rintro rfl
    exact absurd hdigit (by decide)
  · have hmem : c ∈ marks cs := List.mem_filter.mpr ⟨hc, by simpa using hdigit⟩
    have hall {l : List Char} (hl : l.Forall fun c => c.toLower ≠ 'a') (hsub : marks cs ⊆ l) :
        c.toLower ≠ 'a' :=
      List.forall_iff_forall_mem.mp hl c (hsub hmem)
    rcases h with h | h | h
    · exact hall (by decide) h.subset
    · exact hall (by decide) h.subset
    · exact hall (by decide) h.subset

/-- **The sign of a shortened literal.** A literal that was printed and then shortened stands for
a negative number, or for NaN, exactly if it is a minus sign followed by an integer other than
zero. -/
theorem zero_le_parse_iff {text : String} (h : Printed (marks text.toList)) :
    (∀ x, parse text = some x → 0 ≤ x) ↔ ¬IsNegative text := by
  by_cases hsign : text.toList.head? = some '-'
  · obtain ⟨ds, hds⟩ : ∃ ds, text.toList = '-' :: ds := List.head?_eq_some_iff.mp hsign
    have hnil : marks ds = [] := by
      rw [hds, marks_cons_of_not_isDigit (by decide)] at h
      exact h.eq_nil_of_minus
    have hdigits := marks_eq_nil_iff.mp hnil
    have hnegative : IsNegative text ↔ value ds ≠ 0 := by
      rw [IsNegative, hds, ne_eq, value_eq_zero_iff hdigits]
      simp only [List.head?_cons, true_and, List.mem_cons, not_forall]
      constructor
      · rintro ⟨c, rfl | hc, hdigit, hne⟩
        · exact absurd hdigit (by decide)
        · exact ⟨c, hc, hne⟩
      · rintro ⟨c, hc, hne⟩
        exact ⟨c, Or.inr hc, hdigits c hc, hne⟩
    rw [hnegative, not_not, parse_minus hdigits hds]
    constructor
    · intro hall
      by_contra hvalue
      have hne : ds ≠ [] := by
        rintro rfl
        exact hvalue rfl
      refine not_zero_le_round ?_ (hall _ (if_neg hne))
      have hone : (1 : ℚ) ≤ value ds := by exact_mod_cast Nat.one_le_iff_ne_zero.mpr hvalue
      have htiny : (2 : ℚ) ^ (-1074 : ℤ) ≤ 1 := zpow_le_one_of_nonpos₀ one_le_two (by decide)
      linarith
    · intro hvalue x hx
      split_ifs at hx
      obtain rfl := Option.some.inj hx
      exact zero_le_round (by simp [hvalue])
  · have hneg : ¬IsNegative text := fun hneg => hsign hneg.1
    refine iff_of_true (fun x hx => ?_) hneg
    refine (zero_le_of_parse hx (parseSign_fst_of_ne hsign)).resolve_left ?_
    rintro rfl
    obtain ⟨c, hc, hlower⟩ := mem_of_parse_eq_nan hx
    exact h.toLower_ne hc hlower

end Decimal
