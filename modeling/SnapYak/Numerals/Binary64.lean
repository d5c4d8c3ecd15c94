import Mathlib.Algebra.Group.Subgroup.ZPowers.Basic
import Mathlib.Algebra.Order.Field.Rat
import Mathlib.Data.Int.Log
import Mathlib.Data.Prod.Lex
import Mathlib.Data.Rat.Floor
import Mathlib.Tactic.Linarith

/-!
# Binary64 numbers

A finite number of the format binary64 is a rational number with a significand of at most 53 bits.
Beside these there are the infinities and NaN. The two zeros are not distinguished.

The order is total, with NaN below all numbers: `0 ≤ x` says that `x` is a number and not negative,
which is what the comparison of the format says of it.

## Main definitions

* `IsBinary64`, `Binary64` : the numbers of the format.
* `roundEven`, `Binary64.round` : rounding to nearest, ties to even.
* `Binary64.rounded`, `Binary64.HasSignificand` : the same without a largest number.

## Main results

* `Binary64.rounded_mono`, `Binary64.rounded_le`, `Binary64.le_rounded` : rounding is monotone and
  does not pass the numbers with 53 bits.
* `Binary64.abs_rounded_sub_le` : rounding moves a number by half of its last bit at most.
* `Binary64.zero_le_round`, `Binary64.not_zero_le_round` : rounding keeps the sign, if the number is
  not too small.
-/

/-- The finite numbers of the format: below `2 ^ 1024`, with a significand of at most 53 bits, and
multiples of `2 ^ (-1074)`. -/
def IsBinary64 (q : ℚ) : Prop :=
  |q| < 2 ^ 1024 ∧ ∃ m e : ℤ, |m| ≤ 2 ^ 53 ∧ -1074 ≤ e ∧ q = m * 2 ^ e

/-- Binary64 numbers. -/
inductive Binary64
  | nan
  | infinity (negative : Bool)
  | finite (q : ℚ) (h : IsBinary64 q)

/-! ### Rounding to an integer -/

/-- The integer nearest to a rational number; of two, the even one. -/
def roundEven (x : ℚ) : ℤ :=
  if x - ⌊x⌋ < 1 / 2 ∨ x - ⌊x⌋ = 1 / 2 ∧ Even ⌊x⌋ then ⌊x⌋ else ⌊x⌋ + 1

theorem le_roundEven {n : ℤ} {x : ℚ} (h : n ≤ x) : n ≤ roundEven x := by
  have hfloor : n ≤ ⌊x⌋ := Int.le_floor.mpr h
  rw [roundEven]
  split_ifs
  · exact hfloor
  · omega

theorem roundEven_le {n : ℤ} {x : ℚ} (h : x ≤ n) : roundEven x ≤ n := by
  rcases h.lt_or_eq with h | rfl
  · have hfloor : ⌊x⌋ < n := Int.floor_lt.mpr h
    rw [roundEven]
    split_ifs
    · exact hfloor.le
    · omega
  · simp [roundEven]

theorem abs_roundEven_le {n : ℤ} {x : ℚ} (h : |x| ≤ n) : |roundEven x| ≤ n := by
  obtain ⟨hlow, hhigh⟩ := abs_le.mp h
  exact abs_le.mpr ⟨le_roundEven (by push_cast; exact hlow), roundEven_le hhigh⟩

@[simp] theorem roundEven_intCast (n : ℤ) : roundEven n = n :=
  le_antisymm (roundEven_le le_rfl) (le_roundEven le_rfl)

theorem roundEven_mono {x y : ℚ} (h : x ≤ y) : roundEven x ≤ roundEven y := by
  rcases (Int.floor_mono h).lt_or_eq with hlt | heq
  · calc roundEven x ≤ ⌊x⌋ + 1 := roundEven_le (by push_cast; exact (Int.lt_floor_add_one x).le)
      _ ≤ ⌊y⌋ := hlt
      _ ≤ roundEven y := le_roundEven (Int.floor_le y)
  · simp only [roundEven, ← heq]
    split_ifs with hx hy hy
    · exact le_rfl
    · omega
    · -- A fraction that is rounded down is not above one that is rounded up.
      exfalso
      have hhalf : 1 / 2 ≤ x - ⌊x⌋ := le_of_not_gt fun hlt => hx (Or.inl hlt)
      rcases hy with hy | ⟨hy, heven⟩
      · linarith
      · exact hx (Or.inr ⟨by linarith, heven⟩)
    · exact le_rfl

theorem abs_roundEven_sub_le (x : ℚ) : |roundEven x - x| ≤ 1 / 2 := by
  have hlow := Int.floor_le x
  have hhigh := Int.lt_floor_add_one x
  rw [roundEven]
  split_ifs with h
  · have hhalf : x - ⌊x⌋ ≤ 1 / 2 := h.elim le_of_lt fun h => h.1.le
    exact abs_le.mpr ⟨by linarith, by linarith⟩
  · have hhalf : 1 / 2 ≤ x - ⌊x⌋ := le_of_not_gt fun hlt => h (Or.inl hlt)
    push_cast
    exact abs_le.mpr ⟨by linarith, by linarith⟩

/-- An integer that is nearer than a half is the nearest. -/
theorem roundEven_eq {n : ℤ} {x : ℚ} (h : |x - n| < 1 / 2) : roundEven x = n := by
  have hround := abs_roundEven_sub_le x
  have hlt : |((roundEven x - n : ℤ) : ℚ)| < 1 := by
    push_cast
    calc |(roundEven x : ℚ) - n| = |(roundEven x - x) + (x - n)| := by ring_nf
      _ ≤ |roundEven x - x| + |x - n| := abs_add_le _ _
      _ < 1 := by linarith
  have : |roundEven x - n| < 1 := by exact_mod_cast hlt
  exact sub_eq_zero.mp (Int.abs_lt_one_iff.mp this)

theorem roundEven_neg (x : ℚ) : roundEven (-x) = -roundEven x := by
  by_cases hint : (⌊x⌋ : ℚ) = x
  · obtain ⟨n, rfl⟩ : ∃ n : ℤ, x = n := ⟨_, hint.symm⟩
    rw [← Int.cast_neg, roundEven_intCast, roundEven_intCast]
  have hfloor : ⌊-x⌋ = -⌊x⌋ - 1 := by
    have hlow := (Int.floor_le x).lt_of_ne hint
    have hhigh := Int.lt_floor_add_one x
    exact Int.floor_eq_iff.mpr ⟨by push_cast; linarith, by push_cast; linarith⟩
  have heven : Even (-⌊x⌋ - 1) ↔ ¬Even ⌊x⌋ := by
    rw [Int.even_sub_one, even_neg]
  simp only [roundEven, hfloor, heven]
  push_cast
  split_ifs with h h' h'
  · exfalso
    rcases h with h | ⟨h, hodd⟩ <;> rcases h' with h' | ⟨h', heven⟩
    · linarith
    · linarith
    · linarith
    · exact hodd heven
  · omega
  · omega
  · exfalso
    have hhalf : 1 / 2 ≤ x - ⌊x⌋ := le_of_not_gt fun hlt => h' (Or.inl hlt)
    have hhalf' : x - ⌊x⌋ ≤ 1 / 2 := le_of_not_gt fun hlt => h (Or.inl (by linarith))
    have heq : x - ⌊x⌋ = 1 / 2 := le_antisymm hhalf' hhalf
    by_cases he : Even ⌊x⌋
    · exact h' (Or.inr ⟨heq, he⟩)
    · exact h (Or.inr ⟨by linarith, he⟩)

namespace Binary64

/-! ### The order -/

/-- The place of a number in the order. -/
def key : Binary64 → ℕ ×ₗ ℚ
  | nan => toLex (0, 0)
  | infinity true => toLex (1, 0)
  | finite q _ => toLex (2, q)
  | infinity false => toLex (3, 0)

theorem key_injective : Function.Injective key := by
  rintro (_ | (_ | _) | ⟨q, hq⟩) (_ | (_ | _) | ⟨q', hq'⟩) h
  all_goals simp_all [key]

instance : LinearOrder Binary64 := LinearOrder.lift' key key_injective

theorem isBinary64_intCast {n : ℤ} (h : |n| ≤ 2 ^ 53) : IsBinary64 n := by
  refine ⟨?_, n, 0, h, by norm_num, by simp⟩
  calc |(n : ℚ)| = ((|n| : ℤ) : ℚ) := by push_cast; rfl
    _ ≤ ((2 ^ 53 : ℤ) : ℚ) := by exact_mod_cast h
    _ = 2 ^ 53 := by push_cast; rfl
    _ < 2 ^ 1024 := pow_lt_pow_right₀ one_lt_two (by decide)

instance : Zero Binary64 := ⟨finite 0 (by simpa using isBinary64_intCast (n := 0) (by norm_num))⟩

instance : OfNat Binary64 10000000 :=
  ⟨finite 10000000 (by simpa using isBinary64_intCast (n := 10000000) (by norm_num))⟩

variable {q : ℚ}

@[simp] theorem zero_le_finite {h : IsBinary64 q} : 0 ≤ finite q h ↔ 0 ≤ q := by
  show key (finite 0 _) ≤ key (finite q h) ↔ _
  simp [key, Prod.Lex.toLex_le_toLex]

@[simp] theorem zero_le_infinity {negative : Bool} : 0 ≤ infinity negative ↔ negative = false := by
  show key (finite 0 _) ≤ key (infinity negative) ↔ _
  cases negative <;> simp [key, Prod.Lex.toLex_le_toLex]

@[simp] theorem not_zero_le_nan : ¬0 ≤ nan := by
  show ¬key (finite 0 _) ≤ key nan
  simp [key, Prod.Lex.toLex_le_toLex]

/-! ### Rounding -/

/-- The exponent of the last bit of a number of this size. -/
def ulp (q : ℚ) : ℤ := max (-1074) (Int.log 2 |q| - 52)

theorem abs_le_ulp (q : ℚ) : |q| ≤ 2 ^ 53 * 2 ^ ulp q := by
  have hlt : |q| < 2 ^ (Int.log 2 |q| + 1) := Int.lt_zpow_succ_log_self one_lt_two _
  have hle : Int.log 2 |q| + 1 ≤ 53 + ulp q := by
    have := le_max_right (-1074) (Int.log 2 |q| - 52)
    simp only [ulp]
    omega
  calc |q| ≤ 2 ^ (Int.log 2 |q| + 1) := hlt.le
    _ ≤ 2 ^ (53 + ulp q) := zpow_le_zpow_right₀ one_le_two hle
    _ = 2 ^ 53 * 2 ^ ulp q := by rw [zpow_add₀ two_ne_zero]; rfl

/-- A number that is not too small is not below its last bit. -/
theorem ulp_le_abs (h : 2 ^ (-1074 : ℤ) ≤ |q|) : (2 : ℚ) ^ ulp q ≤ |q| := by
  have hpos : 0 < |q| := (zpow_pos two_pos _).trans_le h
  rcases max_choice (-1074) (Int.log 2 |q| - 52) with hmax | hmax
  · rw [ulp, hmax]
    exact h
  · calc (2 : ℚ) ^ ulp q ≤ 2 ^ Int.log 2 |q| := by
          refine zpow_le_zpow_right₀ one_le_two ?_
          rw [ulp, hmax]
          omega
      _ ≤ |q| := Int.zpow_log_le_self one_lt_two hpos

theorem abs_significand_le (q : ℚ) : |roundEven (q / 2 ^ ulp q)| ≤ 2 ^ 53 := by
  refine abs_roundEven_le ?_
  have hpos : (0 : ℚ) < 2 ^ ulp q := zpow_pos two_pos _
  rw [abs_div, abs_of_pos hpos, div_le_iff₀ hpos]
  push_cast
  exact abs_le_ulp q

/-- The rational number with 53 bits that is nearest, whatever its size. -/
def rounded (q : ℚ) : ℚ := roundEven (q / 2 ^ ulp q) * 2 ^ ulp q

theorem two_zpow_ulp_pos (q : ℚ) : (0 : ℚ) < 2 ^ ulp q := zpow_pos two_pos _

theorem ulp_neg (q : ℚ) : ulp (-q) = ulp q := by rw [ulp, ulp, abs_neg]

@[simp] theorem rounded_neg (q : ℚ) : rounded (-q) = -rounded q := by
  rw [rounded, rounded, ulp_neg, neg_div, roundEven_neg, Int.cast_neg, neg_mul]

@[simp] theorem rounded_zero : rounded 0 = 0 := by
  rw [rounded, zero_div, ← Int.cast_zero, roundEven_intCast, Int.cast_zero, zero_mul]

/-- A number with a significand of at most 53 bits, whatever its size. -/
def HasSignificand (q : ℚ) : Prop := ∃ m e : ℤ, |m| ≤ 2 ^ 53 ∧ -1074 ≤ e ∧ q = m * 2 ^ e

theorem hasSignificand_rounded (q : ℚ) : HasSignificand (rounded q) :=
  ⟨_, _, abs_significand_le q, le_max_left _ _, rfl⟩

theorem HasSignificand.neg (h : HasSignificand q) : HasSignificand (-q) := by
  obtain ⟨m, e, hm, he, rfl⟩ := h
  exact ⟨-m, e, by rwa [abs_neg], he, by push_cast; ring⟩

theorem hasSignificand_intCast {n : ℤ} (h : |n| ≤ 2 ^ 53) : HasSignificand n :=
  ⟨n, 0, h, by norm_num, by simp⟩

/-- A multiple of a power of two that is not too large for it. -/
theorem hasSignificand_of_mem {e : ℤ} (h : q ∈ AddSubgroup.zmultiples ((2 : ℚ) ^ e))
    (hle : |q| ≤ 2 ^ 53 * 2 ^ e) (he : -1074 ≤ e) : HasSignificand q := by
  obtain ⟨m, rfl⟩ := AddSubgroup.mem_zmultiples_iff.mp h
  have hpos : (0 : ℚ) < 2 ^ e := zpow_pos two_pos _
  rw [zsmul_eq_mul, abs_mul, abs_of_pos hpos] at hle
  exact ⟨m, e, by exact_mod_cast le_of_mul_le_mul_right hle hpos, he, zsmul_eq_mul _ _⟩

theorem intCast_mul_mem_zmultiples (n e : ℤ) :
    (n : ℚ) * 2 ^ e ∈ AddSubgroup.zmultiples ((2 : ℚ) ^ e) :=
  AddSubgroup.mem_zmultiples_iff.mpr ⟨n, zsmul_eq_mul _ _⟩

theorem rounded_mem_zmultiples (q : ℚ) : rounded q ∈ AddSubgroup.zmultiples ((2 : ℚ) ^ ulp q) :=
  intCast_mul_mem_zmultiples _ _

theorem abs_rounded_le (q : ℚ) : |rounded q| ≤ 2 ^ 53 * 2 ^ ulp q := by
  have hpos := two_zpow_ulp_pos q
  rw [rounded, abs_mul, abs_of_pos hpos]
  exact mul_le_mul_of_nonneg_right (by exact_mod_cast abs_significand_le q) hpos.le

theorem rounded_le_mul {n : ℤ} (h : q ≤ n * 2 ^ ulp q) : rounded q ≤ n * 2 ^ ulp q := by
  have hpos := two_zpow_ulp_pos q
  refine mul_le_mul_of_nonneg_right ?_ hpos.le
  exact_mod_cast roundEven_le ((div_le_iff₀ hpos).mpr h)

/-- A power of two with a larger exponent is a multiple. -/
theorem two_zpow_eq_mul {e u : ℤ} (h : u ≤ e) : (2 : ℚ) ^ e = (2 ^ (e - u).toNat : ℤ) * 2 ^ u := by
  push_cast
  rw [← zpow_natCast, ← zpow_add₀ two_ne_zero, Int.toNat_of_nonneg (by omega), sub_add_cancel]

theorem intCast_mem_zmultiples {e : ℤ} (he : e ≤ 0) (n : ℤ) :
    (n : ℚ) ∈ AddSubgroup.zmultiples ((2 : ℚ) ^ e) := by
  have hmem := intCast_mul_mem_zmultiples (n * 2 ^ (0 - e).toNat) e
  rwa [Int.cast_mul, mul_assoc, ← two_zpow_eq_mul he, zpow_zero, mul_one] at hmem

/-- A number whose last bit is above the exponent `e` is at least as large as every number with
this exponent. -/
theorem abs_le_of_lt_ulp {m e : ℤ} (hm : |m| ≤ 2 ^ 53) (he : -1074 ≤ e) (hulp : e < ulp q)
    (hq : q ≠ 0) : |(m : ℚ) * 2 ^ e| ≤ 2 ^ 52 * 2 ^ ulp q ∧ 2 ^ 52 * 2 ^ ulp q ≤ |q| := by
  have hlog : ulp q = Int.log 2 |q| - 52 := by
    rcases max_choice (-1074) (Int.log 2 |q| - 52) with hmax | hmax
    · rw [ulp, hmax] at hulp
      omega
    · rw [ulp, hmax]
  constructor
  · have hm' : |(m : ℚ)| ≤ 2 ^ 53 := by exact_mod_cast hm
    have hpos : (0 : ℚ) < 2 ^ e := zpow_pos two_pos _
    calc |(m : ℚ) * 2 ^ e| = |(m : ℚ)| * 2 ^ e := by rw [abs_mul, abs_of_pos hpos]
      _ ≤ 2 ^ 53 * 2 ^ (ulp q - 1) :=
          mul_le_mul hm' (zpow_le_zpow_right₀ one_le_two (by omega)) hpos.le (by positivity)
      _ = 2 ^ 52 * 2 ^ ulp q := by
          rw [zpow_sub_one₀ two_ne_zero]
          ring
  · calc (2 : ℚ) ^ 52 * 2 ^ ulp q = 2 ^ Int.log 2 |q| := by
          rw [hlog, zpow_sub₀ two_ne_zero]
          exact mul_div_cancel₀ _ (by positivity)
      _ ≤ |q| := Int.zpow_log_le_self one_lt_two (abs_pos.mpr hq)

/-- Rounding does not pass a number of the format. -/
theorem rounded_le {b : ℚ} (hb : HasSignificand b) (h : q ≤ b) : rounded q ≤ b := by
  obtain ⟨m, e, hm, he, rfl⟩ := hb
  by_cases hulp : ulp q ≤ e
  · -- The bound is a multiple of the last bit of the number.
    rw [two_zpow_eq_mul hulp, ← mul_assoc, ← Int.cast_mul] at h ⊢
    exact rounded_le_mul h
  rcases lt_trichotomy q 0 with hq | rfl | hq
  · obtain ⟨hbound, hlarge⟩ := abs_le_of_lt_ulp hm he (not_le.mp hulp) hq.ne
    rw [abs_of_neg hq] at hlarge
    calc rounded q ≤ (-2 ^ 52 : ℤ) * 2 ^ ulp q := rounded_le_mul (by push_cast; linarith)
      _ ≤ m * 2 ^ e := by
        push_cast
        linarith [(abs_le.mp hbound).1]
  · rwa [rounded_zero]
  · -- The number is the bound, and the smallest with this last bit.
    obtain ⟨hbound, hlarge⟩ := abs_le_of_lt_ulp hm he (not_le.mp hulp) hq.ne'
    rw [abs_of_pos hq] at hlarge
    have hle := (abs_le.mp hbound).2
    calc rounded q ≤ (2 ^ 52 : ℤ) * 2 ^ ulp q := rounded_le_mul (by push_cast; linarith)
      _ ≤ m * 2 ^ e := by
        push_cast
        linarith

theorem le_rounded {b : ℚ} (hb : HasSignificand b) (h : b ≤ q) : b ≤ rounded q := by
  have hneg := rounded_le hb.neg (neg_le_neg h)
  rw [rounded_neg] at hneg
  exact neg_le_neg_iff.mp hneg

/-- A number of the format is not rounded. -/
theorem rounded_eq_self (h : HasSignificand q) : rounded q = q :=
  le_antisymm (rounded_le h le_rfl) (le_rounded h le_rfl)

theorem rounded_le_rounded_of_nonneg {q' : ℚ} (hq : 0 ≤ q) (h : q ≤ q') :
    rounded q ≤ rounded q' := by
  have habs : |q| ≤ |q'| := by rwa [abs_of_nonneg hq, abs_of_nonneg (hq.trans h)]
  rcases hq.eq_or_lt with rfl | hpos
  · rw [rounded_zero]
    exact le_rounded ⟨0, 0, by norm_num, by norm_num, by simp⟩ h
  have hlog : Int.log 2 |q| ≤ Int.log 2 |q'| := Int.log_mono_right (abs_pos.mpr hpos.ne') habs
  rcases (max_le_max_left (-1074) (sub_le_sub_right hlog 52)).lt_or_eq with hulp | hulp
  · -- There is a power of two between the numbers.
    have hlog' : Int.log 2 |q| + 1 ≤ Int.log 2 |q'| := by omega
    have hmid : HasSignificand (2 ^ Int.log 2 |q'|) :=
      ⟨1, Int.log 2 |q'|, by norm_num, by omega, by simp⟩
    calc rounded q ≤ 2 ^ Int.log 2 |q'| := by
          refine rounded_le hmid ?_
          calc q ≤ |q| := le_abs_self q
            _ ≤ 2 ^ (Int.log 2 |q| + 1) := (Int.lt_zpow_succ_log_self one_lt_two _).le
            _ ≤ 2 ^ Int.log 2 |q'| := zpow_le_zpow_right₀ one_le_two hlog'
      _ ≤ rounded q' := by
          refine le_rounded hmid ?_
          have hpos' := hpos.trans_le h
          calc (2 : ℚ) ^ Int.log 2 |q'| ≤ |q'| :=
                Int.zpow_log_le_self one_lt_two (abs_pos.mpr hpos'.ne')
            _ = q' := abs_of_pos hpos'
  · have hulp : ulp q = ulp q' := hulp
    rw [rounded, rounded, hulp]
    have hpos := two_zpow_ulp_pos q'
    refine mul_le_mul_of_nonneg_right ?_ hpos.le
    exact_mod_cast roundEven_mono (div_le_div_of_nonneg_right h hpos.le)

theorem rounded_mono : Monotone rounded := by
  intro q q' h
  have hzero : HasSignificand 0 := ⟨0, 0, by norm_num, by norm_num, by simp⟩
  rcases le_total 0 q with hq | hq
  · exact rounded_le_rounded_of_nonneg hq h
  rcases le_total 0 q' with hq' | hq'
  · exact (rounded_le hzero hq).trans (le_rounded hzero hq')
  · have hneg := rounded_le_rounded_of_nonneg (neg_nonneg.mpr hq') (neg_le_neg h)
    rw [rounded_neg, rounded_neg] at hneg
    exact neg_le_neg_iff.mp hneg

theorem ulp_le {e : ℤ} (hq : q ≠ 0) (h : |q| < 2 ^ (e + 53)) (he : -1074 ≤ e) : ulp q ≤ e := by
  have hlog := (Int.lt_zpow_iff_log_lt one_lt_two (abs_pos.mpr hq)).mp h
  exact max_le he (by omega)

theorem le_ulp {e : ℤ} (h : 2 ^ (e + 52) ≤ |q|) : e ≤ ulp q := by
  have hpos : 0 < |q| := (zpow_pos two_pos _).trans_le h
  have hlog := (Int.zpow_le_iff_le_log one_lt_two hpos).mp h
  exact le_max_of_le_right (by omega)

/-- Rounding moves a number by half of its last bit at most. -/
theorem abs_rounded_sub_le {e : ℤ} (h : |q| < 2 ^ (e + 53)) (he : -1074 ≤ e) :
    |rounded q - q| ≤ 2 ^ e / 2 := by
  rcases eq_or_ne q 0 with rfl | hq
  · rw [rounded_zero, sub_zero, abs_zero]
    exact div_nonneg (zpow_pos two_pos _).le zero_le_two
  have hpos := two_zpow_ulp_pos q
  have hulp := ulp_le hq h he
  calc |rounded q - q| = |roundEven (q / 2 ^ ulp q) - q / 2 ^ ulp q| * 2 ^ ulp q := by
        rw [← abs_of_pos hpos, ← abs_mul, abs_of_pos hpos, sub_mul, div_mul_cancel₀ _ hpos.ne']
        rfl
    _ ≤ 1 / 2 * 2 ^ ulp q := mul_le_mul_of_nonneg_right (abs_roundEven_sub_le _) hpos.le
    _ ≤ 1 / 2 * 2 ^ e := by
        gcongr
        exact one_le_two
    _ = 2 ^ e / 2 := by ring

/-- A number is rounded to a multiple of its last bit that is nearer than a half of it. -/
theorem rounded_eq_mul {n e : ℤ} (hlow : 2 ^ (e + 52) ≤ |q|) (hhigh : |q| < 2 ^ (e + 53))
    (he : -1074 ≤ e) (h : |q - n * 2 ^ e| < 2 ^ e / 2) : rounded q = n * 2 ^ e := by
  have hq : q ≠ 0 := abs_pos.mp ((zpow_pos two_pos _).trans_le hlow)
  have hulp : ulp q = e := le_antisymm (ulp_le hq hhigh he) (le_ulp hlow)
  have hpos : (0 : ℚ) < 2 ^ e := zpow_pos two_pos _
  rw [rounded, hulp, roundEven_eq]
  rw [div_sub' hpos.ne', abs_div, abs_of_pos hpos, div_lt_iff₀ hpos, mul_comm _ (n : ℚ)]
  linarith

theorem isBinary64_rounded (h : |rounded q| < 2 ^ 1024) : IsBinary64 (rounded q) :=
  ⟨h, hasSignificand_rounded q⟩

/-- The number nearest to a rational number, ties to even. -/
def round (q : ℚ) : Binary64 :=
  if h : |rounded q| < 2 ^ 1024 then finite (rounded q) (isBinary64_rounded h) else infinity (q < 0)

theorem round_ne_nan (q : ℚ) : round q ≠ nan := by
  rw [round]
  split_ifs <;> simp

theorem zero_le_round (h : 0 ≤ q) : 0 ≤ round q := by
  rw [round]
  split_ifs
  · rw [zero_le_finite, rounded]
    have hpos : (0 : ℚ) < 2 ^ ulp q := zpow_pos two_pos _
    have hround : 0 ≤ roundEven (q / 2 ^ ulp q) :=
      le_roundEven (by simpa using div_nonneg h hpos.le)
    exact mul_nonneg (by exact_mod_cast hround) hpos.le
  · simpa using h

theorem not_zero_le_round (h : q ≤ -2 ^ (-1074 : ℤ)) : ¬0 ≤ round q := by
  have htiny : (0 : ℚ) < 2 ^ (-1074 : ℤ) := zpow_pos two_pos _
  have hneg : q < 0 := by linarith
  have hpos : (0 : ℚ) < 2 ^ ulp q := zpow_pos two_pos _
  rw [round]
  split_ifs
  · rw [zero_le_finite, not_le, rounded]
    have hulp : (2 : ℚ) ^ ulp q ≤ -q := by
      have hle := ulp_le_abs (q := q)
      rw [abs_of_neg hneg] at hle
      exact hle (by linarith)
    have hround : roundEven (q / 2 ^ ulp q) ≤ -1 := by
      refine roundEven_le ?_
      rw [div_le_iff₀ hpos]
      push_cast
      linarith
    have hround' : ((roundEven (q / 2 ^ ulp q) : ℤ) : ℚ) ≤ -1 := by exact_mod_cast hround
    nlinarith
  · simpa using hneg

end Binary64
