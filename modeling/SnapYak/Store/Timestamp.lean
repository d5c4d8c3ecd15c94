import SnapYak.Numerals.Binary64

/-!
# Timestamps and dates

A Firestore timestamp (`FIRTimestamp`) counts the seconds since 1970 and the nanoseconds within the
second. A date (`NSDate`) is one double, so reading a date from a timestamp rounds: `dateValue` is
computed in doubles, and "may lose precision" (`FIRTimestamp.h`). The other direction cuts the
fraction of the date, which is computed exactly here.

## Main definitions

* `Timestamp.timestampWithDate`, `Timestamp.dateValue` : the two conversions.
* `Timestamp.truncated` : the precision that the service stores.

## Main results

* `Timestamp.dateValue_mono` : reading dates keeps the order of the instants.
* `Timestamp.dateValue_truncated_le` : a date that was read does not become later when it is stored
  and read again.
* `Timestamp.dateValue_truncated_eq_iff` : between 1901 and 2038 it is the same date exactly when it
  was not rounded below the instant that it was read from.
-/

namespace SnapYak

open Binary64

/-- An instant, in seconds since 1970. -/
abbrev Date := ℚ

/-- A Firestore timestamp (`FIRTimestamp`): whole seconds since 1970, and nanoseconds within the
second. -/
structure Timestamp where
  seconds : ℤ
  nanoseconds : ℤ
deriving DecidableEq

namespace Timestamp

/-- The checks of `initWithSeconds:nanoseconds:`: the years 1 to 9999. -/
def IsValid (t : Timestamp) : Prop :=
  0 ≤ t.nanoseconds ∧ t.nanoseconds < 10 ^ 9 ∧
    -62135596800 ≤ t.seconds ∧ t.seconds < 253402300800

instance (t : Timestamp) : Decidable t.IsValid :=
  inferInstanceAs (Decidable (0 ≤ t.nanoseconds ∧ t.nanoseconds < 10 ^ 9 ∧
    -62135596800 ≤ t.seconds ∧ t.seconds < 253402300800))

/-- The seconds of a date, and its fraction cut to nanoseconds. -/
def ofDate (date : Date) : Timestamp where
  seconds := ⌊date⌋
  nanoseconds := ⌊(date - ⌊date⌋) * 10 ^ 9⌋

/-- `timestampWithDate:`, which raises an exception outside the years 1 to 9999. -/
def timestampWithDate (date : Date) : Option Timestamp :=
  if (ofDate date).IsValid then some (ofDate date) else none

/-- The local `interval` of `dateValue`. The nanoseconds and `1e9` are doubles. -/
def interval (t : Timestamp) : ℚ := rounded (rounded t.seconds + rounded (t.nanoseconds / 10 ^ 9))

/-- `dateWithTimeIntervalSince1970:`. What a date keeps is the interval since the year 2001. -/
def dateWithTimeIntervalSince1970 (secs : ℚ) : Date := rounded (secs - 978307200) + 978307200

/-- `dateValue`. -/
def dateValue (t : Timestamp) : Date := dateWithTimeIntervalSince1970 t.interval

/-- A timestamp cut to the microseconds that the service stores. -/
def truncated (t : Timestamp) : Timestamp := { t with nanoseconds := t.nanoseconds / 1000 * 1000 }

/-- The instant that a timestamp stands for, not rounded. -/
def instant (t : Timestamp) : ℚ := t.seconds + t.nanoseconds / 10 ^ 9

variable {t t' : Timestamp} {date : Date}

/-! ### Cutting a date -/

theorem nanoseconds_ofDate (date : Date) :
    0 ≤ (ofDate date).nanoseconds ∧ (ofDate date).nanoseconds < 10 ^ 9 := by
  have hlow := Int.floor_le date
  have hhigh := Int.lt_floor_add_one date
  constructor
  · exact Int.floor_nonneg.mpr (by linarith)
  · refine Int.floor_lt.mpr ?_
    push_cast
    linarith

/-- The dates that can be stored. -/
theorem isSome_timestampWithDate_iff :
    (timestampWithDate date).isSome ↔ -62135596800 ≤ date ∧ date < 253402300800 := by
  obtain ⟨hzero, hnanos⟩ := nanoseconds_ofDate date
  have hlow : -62135596800 ≤ ⌊date⌋ ↔ -62135596800 ≤ date := by
    rw [Int.le_floor]
    norm_num
  have hhigh : ⌊date⌋ < 253402300800 ↔ date < 253402300800 := by
    rw [Int.floor_lt]
    norm_num
  rw [timestampWithDate, ← hlow, ← hhigh]
  simp only [IsValid, hzero, hnanos, true_and, Option.isSome_ite]
  rfl

theorem isValid_ofDate (h : (timestampWithDate date).isSome) : (ofDate date).IsValid := by
  by_contra hvalid
  rw [timestampWithDate, if_neg hvalid] at h
  exact absurd h (by simp)

theorem truncated_truncated (t : Timestamp) : t.truncated.truncated = t.truncated := by
  simp only [truncated, Timestamp.mk.injEq, true_and]
  omega

theorem IsValid.truncated (h : t.IsValid) : t.truncated.IsValid := by
  obtain ⟨hlow, hhigh, hseconds⟩ := h
  exact ⟨by simp only [Timestamp.truncated]; omega, by simp only [Timestamp.truncated]; omega,
    hseconds⟩

/-- The instant of a timestamp that is cut is a whole number of microseconds. -/
theorem exists_instant_of_truncated (h : t.truncated = t) : ∃ k : ℤ, t.instant = k / 10 ^ 6 := by
  refine ⟨t.seconds * 10 ^ 6 + t.nanoseconds / 1000, ?_⟩
  have hns : t.nanoseconds / 1000 * 1000 = t.nanoseconds := congrArg nanoseconds h
  have hns : (t.nanoseconds : ℚ) = ((t.nanoseconds / 1000 : ℤ) : ℚ) * 1000 := by
    exact_mod_cast hns.symm
  rw [instant, hns]
  push_cast
  ring

/-- Storing a date cuts it to whole microseconds. -/
theorem instant_truncated_ofDate (date : Date) :
    (ofDate date).truncated.instant = ⌊date * 10 ^ 6⌋ / 10 ^ 6 := by
  set second := ⌊date⌋ with hsecond
  set fraction := date - second with hfraction
  -- Cutting in two steps is cutting once.
  have hmicro : ⌊fraction * 10 ^ 9⌋ / 1000 = ⌊fraction * 10 ^ 6⌋ := by
    have h := Int.floor_div_natCast (fraction * 10 ^ 9) 1000
    rw [show fraction * 10 ^ 9 / ((1000 : ℕ) : ℚ) = fraction * 10 ^ 6 by push_cast; ring] at h
    exact h.symm
  have hsplit : ⌊date * 10 ^ 6⌋ = second * 10 ^ 6 + ⌊fraction * 10 ^ 6⌋ := by
    rw [← Int.floor_intCast_add]
    congr 1
    push_cast
    ring
  simp only [instant, truncated, ofDate, ← hsecond, ← hfraction, hmicro, hsplit]
  push_cast
  ring

theorem instant_truncated_ofDate_le (date : Date) : (ofDate date).truncated.instant ≤ date := by
  rw [instant_truncated_ofDate, div_le_iff₀ (by norm_num)]
  exact Int.floor_le _

/-- A date that is not before a stored instant is not before it after the cut. -/
theorem instant_le_truncated_ofDate (ht : t.truncated = t) (h : t.instant ≤ date) :
    t.instant ≤ (ofDate date).truncated.instant := by
  obtain ⟨k, hk⟩ := exists_instant_of_truncated ht
  rw [hk, div_le_iff₀ (by norm_num)] at h
  rw [hk, instant_truncated_ofDate]
  refine div_le_div_of_nonneg_right ?_ (by norm_num)
  exact_mod_cast Int.le_floor.mpr h

/-! ### Reading a date -/

theorem IsValid.nanoseconds_mem (h : t.IsValid) :
    (0 : ℚ) ≤ t.nanoseconds ∧ (t.nanoseconds : ℚ) < 10 ^ 9 :=
  ⟨by exact_mod_cast h.1, by exact_mod_cast h.2.1⟩

theorem rounded_seconds (h : t.IsValid) : rounded t.seconds = t.seconds := by
  obtain ⟨-, -, hlow, hhigh⟩ := h
  exact rounded_eq_self (hasSignificand_intCast (abs_le.mpr ⟨by omega, by omega⟩))

theorem fraction_mem (h : t.IsValid) :
    0 ≤ rounded (t.nanoseconds / 10 ^ 9) ∧ rounded (t.nanoseconds / 10 ^ 9) ≤ 1 := by
  obtain ⟨hlow, hhigh⟩ := h.nanoseconds_mem
  constructor
  · refine le_rounded ?_ (div_nonneg hlow (by norm_num))
    exact_mod_cast hasSignificand_intCast (n := 0) (by norm_num)
  · refine rounded_le ?_ ((div_le_one (by norm_num)).mpr hhigh.le)
    exact_mod_cast hasSignificand_intCast (n := 1) (by norm_num)

theorem interval_mem (h : t.IsValid) : t.seconds ≤ t.interval ∧ t.interval ≤ t.seconds + 1 := by
  obtain ⟨hzero, hone⟩ := fraction_mem h
  obtain ⟨-, -, hlow, hhigh⟩ := id h
  rw [interval, rounded_seconds h]
  constructor
  · refine le_rounded (hasSignificand_intCast ?_) (by linarith)
    exact abs_le.mpr ⟨by omega, by omega⟩
  · have hsig : HasSignificand (t.seconds + 1 : ℤ) :=
      hasSignificand_intCast (abs_le.mpr ⟨by omega, by omega⟩)
    push_cast at hsig
    exact rounded_le hsig (by linarith)

/-- Timestamps are ordered by their seconds, then by their nanoseconds. -/
theorem lt_or_eq_of_instant_le (h : t.IsValid) (h' : t'.IsValid) (hle : t.instant ≤ t'.instant) :
    t.seconds < t'.seconds ∨ t.seconds = t'.seconds ∧ t.nanoseconds ≤ t'.nanoseconds := by
  have hlow := h.nanoseconds_mem.1
  have hhigh := h'.nanoseconds_mem.2
  rw [instant, instant] at hle
  have hseconds : (t.seconds : ℚ) < t'.seconds + 1 := by linarith
  have hseconds : t.seconds < t'.seconds + 1 := by exact_mod_cast hseconds
  rcases (Int.lt_add_one_iff.mp hseconds).lt_or_eq with hlt | heq
  · exact Or.inl hlt
  · refine Or.inr ⟨heq, ?_⟩
    rw [heq] at hle
    have hnanos : (t.nanoseconds : ℚ) ≤ t'.nanoseconds := by linarith
    exact_mod_cast hnanos

theorem interval_mono (h : t.IsValid) (h' : t'.IsValid) (hle : t.instant ≤ t'.instant) :
    t.interval ≤ t'.interval := by
  rcases lt_or_eq_of_instant_le h h' hle with hlt | ⟨heq, hnanos⟩
  · have hsucc : (t.seconds : ℚ) + 1 ≤ t'.seconds := by exact_mod_cast hlt
    exact ((interval_mem h).2.trans hsucc).trans (interval_mem h').1
  · rw [interval, interval, heq]
    have hnanos' : (t.nanoseconds : ℚ) ≤ t'.nanoseconds := by exact_mod_cast hnanos
    refine rounded_mono (add_le_add_right (rounded_mono ?_) _)
    exact div_le_div_of_nonneg_right hnanos' (by norm_num)

theorem dateWithTimeIntervalSince1970_mono : Monotone dateWithTimeIntervalSince1970 :=
  fun _ _ h => add_le_add_left (rounded_mono (sub_le_sub_right h _)) _

/-- Reading dates keeps the order of the instants. -/
theorem dateValue_mono (h : t.IsValid) (h' : t'.IsValid) (hle : t.instant ≤ t'.instant) :
    t.dateValue ≤ t'.dateValue :=
  dateWithTimeIntervalSince1970_mono (interval_mono h h' hle)

/-- A date that was read is a multiple of a power of two, for which it has at most 53 bits. -/
theorem exists_dateValue_mem (h : t.IsValid) :
    ∃ e : ℤ, -24 ≤ e ∧ e ≤ 0 ∧ t.dateValue ∈ AddSubgroup.zmultiples ((2 : ℚ) ^ e) ∧
      |t.dateValue| ≤ 2 ^ 53 * 2 ^ e := by
  obtain ⟨hlow, hhigh⟩ := interval_mem h
  obtain ⟨hzero, hone⟩ := fraction_mem h
  have hseconds := rounded_seconds h
  obtain ⟨-, -, hfirst, hlast⟩ := h
  have hfirst : (-62135596800 : ℚ) ≤ t.seconds := by exact_mod_cast hfirst
  have hlast : (t.seconds : ℚ) + 1 ≤ 253402300800 := by exact_mod_cast hlast
  have hyear {e : ℤ} (he : e ≤ 0) : 978307200 ∈ AddSubgroup.zmultiples ((2 : ℚ) ^ e) := by
    exact_mod_cast intCast_mem_zmultiples he 978307200
  have hbig : (2 : ℚ) ^ (-24 + 52 : ℤ) = 268435456 := by norm_num
  rw [dateValue, dateWithTimeIntervalSince1970]
  rcases le_total (978307200 / 2) t.interval with hlate | hearly
  · -- The interval since 2001 is not larger than the one since 1970, and not rounded.
    set q := rounded t.seconds + rounded (t.nanoseconds / 10 ^ 9) with hq
    have hinterval : t.interval = rounded q := rfl
    have hlarge : 268435456 ≤ q := by
      refine le_of_not_gt fun hsmall => ?_
      have hsig := hasSignificand_intCast (n := 268435456) (by norm_num)
      have hle := rounded_le hsig (by push_cast; exact hsmall.le)
      push_cast at hle
      linarith
    have hpos : 0 < q := by linarith
    have hulp : ulp q ≤ 0 :=
      ulp_le hpos.ne' (by rw [abs_of_pos hpos]; norm_num; linarith) (by norm_num)
    have hmem := rounded_mem_zmultiples q
    have habs := abs_rounded_le q
    rw [← hinterval] at hmem habs
    have hexact : rounded (t.interval - 978307200) = t.interval - 978307200 := by
      refine rounded_eq_self ?_
      refine hasSignificand_of_mem (sub_mem hmem (hyear hulp)) ?_ (le_max_left _ _)
      refine le_trans (abs_le.mpr ⟨?_, ?_⟩) habs
      · linarith [le_abs_self t.interval]
      · linarith [le_abs_self t.interval]
    rw [hexact, sub_add_cancel]
    exact ⟨ulp q, le_ulp (by rw [hbig, abs_of_pos hpos]; exact hlarge), hulp, hmem, habs⟩
  · -- The interval since 2001 is the larger one.
    set p := t.interval - 978307200 with hp
    have hneg : p < 0 := by linarith
    have hulp : ulp p ≤ 0 :=
      ulp_le hneg.ne (by rw [abs_of_neg hneg]; norm_num; linarith) (by norm_num)
    have hround : rounded p ≤ -489153600 := by
      have hsig := hasSignificand_intCast (n := -489153600) (by norm_num)
      push_cast at hsig
      exact rounded_le hsig (by linarith)
    refine ⟨ulp p, le_ulp (by rw [hbig, abs_of_neg hneg]; linarith), hulp,
      add_mem (rounded_mem_zmultiples p) (hyear hulp), ?_⟩
    refine le_trans (abs_le.mpr ⟨?_, ?_⟩) (abs_rounded_le p)
    · linarith [neg_abs_le (rounded p)]
    · linarith [neg_abs_le (rounded p)]

/-- A date that was read and the fraction of its second are doubles. -/
theorem hasSignificand_dateValue (h : t.IsValid) :
    HasSignificand t.dateValue ∧ HasSignificand (t.dateValue - ⌊t.dateValue⌋) := by
  obtain ⟨e, hlow, hhigh, hmem, habs⟩ := exists_dateValue_mem h
  refine ⟨hasSignificand_of_mem hmem habs (by omega), ?_⟩
  refine hasSignificand_of_mem (sub_mem hmem (intCast_mem_zmultiples hhigh _)) ?_ (by omega)
  rw [Int.self_sub_floor, abs_of_nonneg (Int.fract_nonneg _)]
  calc Int.fract t.dateValue ≤ 1 := (Int.fract_lt_one _).le
    _ ≤ 2 ^ 53 * 2 ^ (-24 : ℤ) := by norm_num
    _ ≤ 2 ^ 53 * 2 ^ e :=
        mul_le_mul_of_nonneg_left (zpow_le_zpow_right₀ one_le_two hlow) (by norm_num)

/-- A date that was read is not passed by the dates of the timestamps that are not after it. -/
theorem dateValue_le (h : t.IsValid) (h' : t'.IsValid) (hle : t.instant ≤ t'.dateValue) :
    t.dateValue ≤ t'.dateValue := by
  obtain ⟨hsig, hfract⟩ := hasSignificand_dateValue h'
  set date := t'.dateValue with hdate
  have hnanos := h.nanoseconds_mem.1
  have hfloor := Int.floor_le date
  have hinterval : t.interval ≤ date := by
    rw [instant] at hle
    have hseconds : t.seconds ≤ ⌊date⌋ :=
      Int.le_floor.mpr (by linarith [div_nonneg hnanos (by norm_num : (0 : ℚ) ≤ 10 ^ 9)])
    refine rounded_le hsig ?_
    rw [rounded_seconds h]
    rcases hseconds.lt_or_eq with hlt | heq
    · have hsucc : (t.seconds : ℚ) + 1 ≤ ⌊date⌋ := by exact_mod_cast hlt
      linarith [(fraction_mem h).2]
    · rw [heq] at hle ⊢
      linarith [rounded_le hfract (by linarith : (t.nanoseconds : ℚ) / 10 ^ 9 ≤ date - ⌊date⌋)]
  calc t.dateValue ≤ dateWithTimeIntervalSince1970 date :=
        dateWithTimeIntervalSince1970_mono hinterval
    _ = date := by
        -- The interval since 2001 is the double that the date keeps.
        rw [hdate, dateValue, dateWithTimeIntervalSince1970, dateWithTimeIntervalSince1970,
          add_sub_cancel_right, rounded_eq_self (hasSignificand_rounded _)]

/-- Between 2004 and 2038 the dates are multiples of `2 ^ (-22)`. -/
theorem dateValue_eq_of_abs_sub_lt {k : ℤ} (h : t.IsValid) (hlow : 2 ^ 30 ≤ t.seconds)
    (hhigh : t.seconds + 1 < 2 ^ 31)
    (hk : |(t.nanoseconds : ℚ) / 10 ^ 9 - k * 2 ^ (-22 : ℤ)| < 2 ^ (-24 : ℤ)) :
    t.dateValue = t.seconds + k * 2 ^ (-22 : ℤ) := by
  have hlow' : (2 ^ 30 : ℚ) ≤ t.seconds := by exact_mod_cast hlow
  have hhigh' : (t.seconds : ℚ) + 1 < 2 ^ 31 := by exact_mod_cast hhigh
  obtain ⟨hnanos, hnanos'⟩ := h.nanoseconds_mem
  obtain ⟨hzero, hone⟩ := fraction_mem h
  have hfraction := abs_rounded_sub_le (q := t.nanoseconds / 10 ^ 9) (e := -53)
    (abs_lt.mpr ⟨by norm_num; linarith, by norm_num; linarith⟩) (by norm_num)
  rw [abs_le] at hfraction
  rw [abs_lt] at hk
  have hgrid : (t.seconds : ℚ) + k * 2 ^ (-22 : ℤ) =
      (t.seconds * 2 ^ 22 + k : ℤ) * 2 ^ (-22 : ℤ) := by
    push_cast
    norm_num
    ring
  have hinterval : t.interval = t.seconds + k * 2 ^ (-22 : ℤ) := by
    rw [hgrid, interval, rounded_seconds h]
    have habs : |t.seconds + rounded (t.nanoseconds / 10 ^ 9)| =
        t.seconds + rounded (t.nanoseconds / 10 ^ 9) := abs_of_nonneg (by linarith)
    refine rounded_eq_mul ?_ ?_ (by norm_num) ?_
    · rw [habs]
      norm_num
      linarith
    · rw [habs]
      norm_num
      linarith
    · rw [← hgrid, abs_lt]
      norm_num at hfraction hk ⊢
      constructor <;> linarith
  have hexact : HasSignificand (t.interval - 978307200) := by
    rw [hinterval]
    have hyear := intCast_mem_zmultiples (e := -22) (by norm_num) 978307200
    push_cast at hyear
    refine hasSignificand_of_mem (sub_mem (add_mem (intCast_mem_zmultiples (by norm_num) _)
      (intCast_mul_mem_zmultiples _ _)) hyear) ?_ (by norm_num)
    rw [abs_le]
    norm_num at hk ⊢
    constructor <;> linarith
  rw [dateValue, dateWithTimeIntervalSince1970, rounded_eq_self hexact, sub_add_cancel, hinterval]

/-! ### Storing a date that was read -/

/-- A date that was read does not become later when it is stored and read again. -/
theorem dateValue_truncated_le (h : t.IsValid) (hdate : (ofDate t.dateValue).IsValid) :
    (ofDate t.dateValue).truncated.dateValue ≤ t.dateValue :=
  dateValue_le hdate.truncated h (instant_truncated_ofDate_le _)

/-- It is the same date unless it was rounded below the instant that it was read from. -/
theorem dateValue_truncated_eq (h : t.IsValid) (hdate : (ofDate t.dateValue).IsValid)
    (ht : t.truncated = t) (hle : t.instant ≤ t.dateValue) :
    (ofDate t.dateValue).truncated.dateValue = t.dateValue :=
  le_antisymm (dateValue_truncated_le h hdate)
    (dateValue_mono h hdate.truncated (instant_le_truncated_ofDate ht hle))

theorem seconds_le_dateValue (h : t.IsValid) : t.seconds ≤ t.dateValue := by
  have hsig : HasSignificand (t.seconds - 978307200 : ℤ) := by
    obtain ⟨-, -, hlow, hhigh⟩ := h
    exact hasSignificand_intCast (abs_le.mpr ⟨by omega, by omega⟩)
  push_cast at hsig
  have hle := le_rounded hsig (sub_le_sub_right (interval_mem h).1 978307200)
  rw [dateValue, dateWithTimeIntervalSince1970]
  linarith

/-- Between 1901 and 2038 reading moves a date by less than half a microsecond. -/
theorem abs_dateValue_sub_instant_lt (h : t.IsValid) (hlow : -2 ^ 31 ≤ t.seconds)
    (hhigh : t.seconds < 2 ^ 31) : |t.dateValue - t.instant| < 1 / 2000000 := by
  have hlow : (-2 ^ 31 : ℚ) ≤ t.seconds := by exact_mod_cast hlow
  have hhigh : (t.seconds : ℚ) + 1 ≤ 2 ^ 31 := by exact_mod_cast hhigh
  obtain ⟨hnanos, hnanos'⟩ := h.nanoseconds_mem
  obtain ⟨hzero, hone⟩ := fraction_mem h
  obtain ⟨hbelow, habove⟩ := interval_mem h
  -- The three roundings: of the fraction, of the sum and of the interval since 2001.
  have hfraction := abs_rounded_sub_le (q := t.nanoseconds / 10 ^ 9) (e := -53)
    (abs_lt.mpr ⟨by norm_num; linarith, by norm_num; linarith⟩) (by norm_num)
  have hsum := abs_rounded_sub_le (q := rounded t.seconds + rounded (t.nanoseconds / 10 ^ 9))
    (e := -21) (by
      rw [rounded_seconds h]
      exact abs_lt.mpr ⟨by norm_num; linarith, by norm_num; linarith⟩) (by norm_num)
  have hyear := abs_rounded_sub_le (q := t.interval - 978307200) (e := -21)
    (abs_lt.mpr ⟨by norm_num; linarith, by norm_num; linarith⟩) (by norm_num)
  rw [← interval, rounded_seconds h] at hsum
  rw [abs_le] at hfraction hsum hyear
  rw [dateValue, dateWithTimeIntervalSince1970, instant, abs_lt]
  norm_num at hfraction hsum hyear ⊢
  constructor <;> linarith

/-- Between 1901 and 2038 only a date that was not rounded below its instant stays. -/
theorem dateValue_truncated_eq_iff (h : t.IsValid) (hdate : (ofDate t.dateValue).IsValid)
    (ht : t.truncated = t) (hlow : -2 ^ 31 ≤ t.seconds) (hhigh : t.seconds < 2 ^ 31) :
    (ofDate t.dateValue).truncated.dateValue = t.dateValue ↔ t.instant ≤ t.dateValue := by
  refine ⟨fun heq => le_of_not_gt fun hlt => ?_, dateValue_truncated_eq h hdate ht⟩
  have hnear := abs_lt.mp (abs_dateValue_sub_instant_lt h hlow hhigh)
  have hseconds : -2 ^ 31 ≤ ⌊t.dateValue⌋ ∧ ⌊t.dateValue⌋ < 2 ^ 31 := by
    refine ⟨hlow.trans (Int.le_floor.mpr (seconds_le_dateValue h)), Int.floor_lt.mpr ?_⟩
    have hnanos := h.nanoseconds_mem.2
    have hsucc : (t.seconds : ℚ) + 1 ≤ 2 ^ 31 := by exact_mod_cast hhigh
    rw [instant] at hlt
    push_cast
    linarith
  have hnear' := abs_lt.mp (abs_dateValue_sub_instant_lt hdate.truncated hseconds.1 hseconds.2)
  rw [heq] at hnear'
  -- The cut takes at least a microsecond from the instant.
  obtain ⟨k, hk⟩ := exists_instant_of_truncated ht
  have hcut : (ofDate t.dateValue).truncated.instant ≤ t.instant - 1 / 10 ^ 6 := by
    rw [hk, lt_div_iff₀ (by norm_num)] at hlt
    have hfloor : ⌊t.dateValue * 10 ^ 6⌋ + 1 ≤ k := Int.floor_lt.mpr hlt
    have hfloor : (⌊t.dateValue * 10 ^ 6⌋ : ℚ) + 1 ≤ k := by exact_mod_cast hfloor
    rw [instant_truncated_ofDate, hk, ← sub_div]
    exact div_le_div_of_nonneg_right (by linarith) (by norm_num)
  linarith

end Timestamp

end SnapYak
