import Compositing.Number.Binary
import Mathlib.Algebra.Order.Floor.Semifield
import Mathlib.Data.Rat.Floor

/-! # Whole numbers in binary

    Cutting a number off at an integer keeps the order of numbers and does not
    go beyond the bound, so the result fits into an integer of that size.

    A whole number is the quotient `v * d / d`, however it is written.  Below
    `2 ^ 53` it is rounded to itself.  Above, its unit is at least one and its
    mantissa at least `2 ^ 52`, so that it stays above every smaller bound, be
    it rounded to a finite number or to infinity. -/

namespace Compositing.Number
variable {most v d : Nat} {negative : Bool}

theorem power_eq (base exponent : Nat) : power base exponent = base ^ exponent := rfl

/-! ## The order of numbers -/

/-- The value of a finite number. -/
def rational (negative : Bool) (mantissa : Nat) (exponent : Int) : ℚ :=
  (if negative then -1 else 1) * (mantissa * 2 ^ exponent)

/-- The first number is at most the second.  The infinities are the ends, and what is not a
    number is not compared. -/
inductive AtMost : Number → Number → Prop where
  | finite {negative negative' : Bool} {mantissa mantissa' : Nat} {exponent exponent' : Int}
    (h : rational negative mantissa exponent ≤ rational negative' mantissa' exponent') :
    AtMost (.finite negative mantissa exponent) (.finite negative' mantissa' exponent')
  | least {x : Number} (h : x ≠ .nan) : AtMost (.infinite true) x
  | greatest {x : Number} (h : x ≠ .nan) : AtMost x (.infinite false)

/-! ## Cutting off -/

theorem floor_rational (mantissa : Nat) (exponent : Int) :
    ⌊rational false mantissa exponent⌋₊ =
      mantissa * power 2 exponent.toNat / power 2 (-exponent).toNat := by
  have hexponent : exponent = (exponent.toNat : Int) - ((-exponent).toNat : Int) := by omega
  have hquotient : rational false mantissa exponent =
      ((mantissa * 2 ^ exponent.toNat : Nat) : ℚ) / ((2 ^ (-exponent).toNat : Nat) : ℚ) := by
    have htwo : (2 : ℚ) ^ exponent = 2 ^ exponent.toNat / 2 ^ (-exponent).toNat := by
      conv_lhs => rw [hexponent, zpow_sub₀ two_ne_zero, zpow_natCast, zpow_natCast]
    rw [rational, htwo, if_neg Bool.false_ne_true, one_mul, ← mul_div_assoc]
    push_cast
    rfl
  rw [hquotient, Nat.floor_div_eq_div]
  rfl

/-- A finite number is cut off at the integer towards zero, and put between 0 and the bound. -/
theorem truncate_finite (most : Nat) (negative : Bool) (mantissa : Nat) (exponent : Int) :
    (finite negative mantissa exponent).truncate most =
      min most ⌊rational negative mantissa exponent⌋₊ := by
  cases negative with
  | false =>
    rw [floor_rational]
    rfl
  | true =>
    have hsize : (0 : ℚ) ≤ mantissa * 2 ^ exponent :=
      mul_nonneg (Nat.cast_nonneg _) (zpow_nonneg zero_le_two _)
    have hvalue : rational true mantissa exponent ≤ 0 := by
      rw [rational, if_pos rfl, neg_one_mul]
      exact neg_nonpos.mpr hsize
    rw [Nat.floor_of_nonpos hvalue, Nat.min_zero]
    rfl

theorem truncate_le (most : Nat) (x : Number) : x.truncate most ≤ most := by
  cases x with
  | finite negative mantissa exponent =>
    rw [truncate_finite]
    exact Nat.min_le_left _ _
  | infinite negative => cases negative <;> simp [truncate]
  | nan => exact Nat.zero_le _

/-- Cutting off keeps the order, with more room for the greater number or as much. -/
theorem truncate_mono {most' : Nat} {x y : Number} (h : x.AtMost y) (hmost : most ≤ most') :
    x.truncate most ≤ y.truncate most' := by
  cases h with
  | finite h =>
    rw [truncate_finite, truncate_finite]
    exact min_le_min hmost (Nat.floor_mono h)
  | least _ => exact Nat.zero_le _
  | greatest _ => exact Nat.le_trans (truncate_le most _) hmost

/-- The integer is the number without its fraction, where there is room for it between 0 and the
    bound, and otherwise the nearer of the two. -/
def IsSaturated (most : Nat) : Number → Nat → Prop
  | .finite negative mantissa exponent, n => n = min most ⌊rational negative mantissa exponent⌋₊
  | .infinite negative, n => n = if negative then 0 else most
  | .nan, _ => False

theorem isSaturated_truncate (most : Nat) {x : Number} (h : x ≠ .nan) :
    IsSaturated most x (x.truncate most) := by
  cases x with
  | finite negative mantissa exponent => exact truncate_finite most negative mantissa exponent
  | infinite negative => rfl
  | nan => exact h rfl

/-- What is cut off at the greatest small integer fits into one. -/
theorem toNat_integer8 (x : Number) :
    (UInt8.ofNat (x.truncate (UInt8.size - 1))).toNat = x.truncate (UInt8.size - 1) :=
  UInt8.toNat_ofNat_of_lt' (Nat.lt_of_le_pred (by decide) (truncate_le _ x))

/-- What is cut off at the greatest integer fits into one. -/
theorem toNat_integer32 (x : Number) :
    (UInt32.ofNat (x.truncate (UInt32.size - 1))).toNat = x.truncate (UInt32.size - 1) :=
  UInt32.toNat_ofNat_of_lt' (Nat.lt_of_le_pred (by decide) (truncate_le _ x))

/-! ## Rounding -/

/-- A product has as many binary digits as its factors together, or one less. -/
theorem log2_mul (hv : v ≠ 0) (hd : d ≠ 0) :
    v.log2 + d.log2 ≤ (v * d).log2 ∧ (v * d).log2 ≤ v.log2 + d.log2 + 1 := by
  have hne : v * d ≠ 0 := Nat.mul_ne_zero hv hd
  constructor
  · rw [Nat.le_log2 hne, Nat.pow_add]
    exact Nat.mul_le_mul (Nat.log2_self_le hv) (Nat.log2_self_le hd)
  · have hlt : v * d < 2 ^ (v.log2 + d.log2 + 2) := by
      calc v * d < 2 ^ (v.log2 + 1) * 2 ^ (d.log2 + 1) :=
            Nat.mul_lt_mul'' Nat.lt_log2_self Nat.lt_log2_self
        _ = 2 ^ (v.log2 + d.log2 + 2) := by rw [← Nat.pow_add]; congr 1; omega
    exact Nat.le_of_lt_succ ((Nat.log2_lt hne).mpr hlt)

/-- The unit of a whole number depends on its binary digits only. -/
theorem unitExponent_whole (f : Format) (hv : v ≠ 0) (hd : d ≠ 0) :
    unitExponent f (v * d) d = max f.least ((v.log2 : Int) - (f.precision - 1)) := by
  obtain ⟨hlow, hhigh⟩ := log2_mul hv hd
  obtain ⟨carry, hcarry, hlog⟩ : ∃ carry ≤ 1, (v * d).log2 = v.log2 + d.log2 + carry :=
    ⟨(v * d).log2 - (v.log2 + d.log2), by omega, by omega⟩
  have hestimate : ((v * d).log2 : Int) - d.log2 = ((v.log2 + carry : Nat) : Int) := by omega
  have hless : v * d * 2 ^ 0 < d * 2 ^ (v.log2 + carry) ↔ v < 2 ^ (v.log2 + carry) := by
    rw [Nat.pow_zero, Nat.mul_one, Nat.mul_comm v, Nat.mul_lt_mul_left (Nat.pos_of_ne_zero hd)]
  unfold unitExponent
  simp only [hestimate, power_eq, Int.toNat_neg_natCast, Int.toNat_natCast, hless]
  -- the estimate is too high exactly if the quotient is below its power of two
  obtain rfl | rfl : carry = 0 ∨ carry = 1 := by omega
  · rw [Nat.add_zero, if_neg (Nat.not_lt.mpr (Nat.log2_self_le hv))]
  · rw [if_pos Nat.lt_log2_self, Nat.cast_add, Nat.cast_one, add_sub_cancel_right]

theorem le_divideToEven (n d : Nat) : n / d ≤ divideToEven n d := by
  unfold divideToEven
  cases compare (2 * (n % d)) d with
  | lt => exact Nat.le_refl _
  | gt => exact Nat.le_succ _
  | eq =>
    show n / d ≤ if n / d % 2 = 0 then n / d else n / d + 1
    split
    · exact Nat.le_refl _
    · exact Nat.le_succ _

/-- A quotient without remainder is not rounded. -/
theorem divideToEven_mul (hd : d ≠ 0) (q : Nat) : divideToEven (q * d) d = q := by
  have hless : compare (2 * (q * d % d)) d = .lt := by
    rw [Nat.mul_mod_left, Nat.mul_zero, Nat.compare_eq_lt]
    exact Nat.pos_of_ne_zero hd
  unfold divideToEven
  rw [hless, Nat.mul_div_cancel _ (Nat.pos_of_ne_zero hd)]

/-- Below `2 ^ 53` a whole number is rounded to itself. -/
theorem ofRatio_exact (negative : Bool) (hv : v ≠ 0) (hd : d ≠ 0) (hlt : v < 2 ^ 53) :
    ∃ shift : Nat, ofRatio double negative (v * d) d =
      .finite negative (v * 2 ^ shift) (-(shift : Int)) := by
  have hlog : v.log2 < 53 := (Nat.log2_lt hv).mpr hlt
  obtain ⟨shift, hshift⟩ : ∃ shift, v.log2 + shift = 52 := ⟨52 - v.log2, by omega⟩
  have hexponent : unitExponent double (v * d) d = -(shift : Int) := by
    rw [unitExponent_whole double hv hd]
    exact (max_eq_right (show (-1074 : Int) ≤ v.log2 - 52 by omega)).trans (by omega)
  have hmantissa : divideToEven (v * d * 2 ^ shift) (d * 2 ^ 0) = v * 2 ^ shift := by
    rw [Nat.pow_zero, Nat.mul_one, Nat.mul_right_comm]
    exact divideToEven_mul hd _
  have hless : v * 2 ^ shift < 2 ^ double.precision := by
    calc v * 2 ^ shift < 2 ^ (v.log2 + 1) * 2 ^ shift :=
          Nat.mul_lt_mul_of_pos_right Nat.lt_log2_self (Nat.two_pow_pos _)
      _ = 2 ^ 53 := by rw [← Nat.pow_add]; congr 1; omega
  refine ⟨shift, ?_⟩
  unfold ofRatio
  rw [if_neg (Nat.mul_ne_zero hv hd)]
  simp only [hexponent, power_eq, neg_neg, Int.toNat_natCast, Int.toNat_neg_natCast, hmantissa,
    if_neg (Nat.ne_of_lt hless)]
  exact if_neg (not_lt.mpr (show -(shift : Int) ≤ 971 by omega))

/-- From `2 ^ 53` on, a whole number is rounded to one that is no less, or to infinity. -/
theorem ofRatio_large (negative : Bool) (hd : d ≠ 0) (hle : 2 ^ 53 ≤ v) :
    ofRatio double negative (v * d) d = .infinite negative ∨
      ∃ mantissa exponent : Nat, 2 ^ 52 ≤ mantissa ∧ 1 ≤ exponent ∧
        ofRatio double negative (v * d) d = .finite negative mantissa exponent := by
  have hv : v ≠ 0 := by omega
  have hlog : 53 ≤ v.log2 := (Nat.le_log2 hv).mpr hle
  obtain ⟨unit, hunit⟩ : ∃ unit, v.log2 = unit + 52 := ⟨v.log2 - 52, by omega⟩
  have hexponent : unitExponent double (v * d) d = (unit : Int) := by
    rw [unitExponent_whole double hv hd, hunit]
    exact (max_eq_right (show (-1074 : Int) ≤ ((unit + 52 : Nat) : Int) - 52 by omega)).trans
      (by omega)
  have hmantissa : 2 ^ 52 ≤ divideToEven (v * d * 2 ^ 0) (d * 2 ^ unit) := by
    refine Nat.le_trans ?_ (le_divideToEven _ _)
    rw [Nat.pow_zero, Nat.mul_one, Nat.mul_comm v, Nat.mul_div_mul_left _ _ (Nat.pos_of_ne_zero hd),
      Nat.le_div_iff_mul_le (Nat.two_pow_pos _), ← Nat.pow_add, Nat.add_comm, ← hunit]
    exact Nat.log2_self_le hv
  unfold ofRatio
  rw [if_neg (Nat.mul_ne_zero hv hd)]
  simp only [hexponent, power_eq, Int.toNat_neg_natCast, Int.toNat_natCast]
  generalize divideToEven (v * d * 2 ^ 0) (d * 2 ^ unit) = mantissa at hmantissa ⊢
  by_cases hcarry : mantissa = 2 ^ double.precision
  · simp only [if_pos hcarry]
    split
    · exact .inl rfl
    · exact .inr ⟨2 ^ 52, unit + 1, Nat.le_refl _, by omega, rfl⟩
  · simp only [if_neg hcarry]
    split
    · exact .inl rfl
    · exact .inr ⟨mantissa, unit, hmantissa, by omega, rfl⟩

/-- A whole number is cut off at itself, or at a bound below `2 ^ 53` if it is greater. -/
theorem truncate_ofRatio (negative : Bool) (hv : v ≠ 0) (hd : d ≠ 0) (hmost : most < 2 ^ 53) :
    (ofRatio double negative (v * d) d).truncate most = if negative then 0 else min most v := by
  by_cases hlt : v < 2 ^ 53
  · obtain ⟨shift, hexact⟩ := ofRatio_exact negative hv hd hlt
    rw [hexact, truncate, Int.toNat_neg_natCast, neg_neg, Int.toNat_natCast, power_eq, power_eq,
      Nat.pow_zero, Nat.mul_one, Nat.mul_div_cancel _ (Nat.two_pow_pos _)]
  · have hbound : most < v := Nat.lt_of_lt_of_le hmost (Nat.not_lt.mp hlt)
    rw [Nat.min_eq_left (Nat.le_of_lt hbound)]
    rcases ofRatio_large negative hd (Nat.not_lt.mp hlt) with
      hinfinite | ⟨mantissa, exponent, hmantissa, hexponent, hfinite⟩
    · rw [hinfinite, truncate]
    · have hwhole : most ≤ mantissa * 2 ^ exponent := by
        calc most ≤ 2 ^ 52 * 2 ^ 1 := Nat.le_of_lt hmost
          _ ≤ mantissa * 2 ^ exponent :=
            Nat.mul_le_mul hmantissa (Nat.pow_le_pow_right two_pos hexponent)
      rw [hfinite, truncate, Int.toNat_neg_natCast, Int.toNat_natCast, power_eq, power_eq,
        Nat.pow_zero, Nat.div_one, Nat.min_eq_left hwhole]

/-- Zeros behind the point do not change where a whole number is cut off. -/
theorem truncate_ofDecimal (negative : Bool) (v zeros : Nat) (hmost : most < 2 ^ 53) :
    (ofDecimal double negative (v * 10 ^ zeros) (-(zeros : Int))).truncate most =
      if negative then 0 else min most v := by
  by_cases hv : v = 0
  · subst hv
    cases negative <;> simp [ofDecimal, truncate]
  · have hne : v * 10 ^ zeros ≠ 0 := Nat.mul_ne_zero hv (Nat.pow_pos (by decide)).ne'
    -- neither shortcut is taken, as ten to the power of the zeros is more than eight to it
    have hhigh : ¬ double.greatest + double.precision ≤ 3 * (-(zeros : Int)) :=
      not_le.mpr (show 3 * (-(zeros : Int)) < 1024 by omega)
    have hdigits : 3 * zeros ≤ (v * 10 ^ zeros).log2 := by
      rw [Nat.le_log2 hne, Nat.pow_mul]
      calc (2 ^ 3) ^ zeros ≤ 10 ^ zeros := Nat.pow_le_pow_left (by decide) zeros
        _ ≤ v * 10 ^ zeros := Nat.le_mul_of_pos_left _ (Nat.pos_of_ne_zero hv)
    have hlow : ¬ (v * 10 ^ zeros).log2 + 1 + 3 * (-(zeros : Int)) < double.least :=
      not_lt.mpr (show (-1074 : Int) ≤ (v * 10 ^ zeros).log2 + 1 + 3 * (-(zeros : Int)) by omega)
    have hquotient : ofDecimal double negative (v * 10 ^ zeros) (-(zeros : Int)) =
        ofRatio double negative (v * 10 ^ zeros) (10 ^ zeros) := by
      unfold ofDecimal
      rw [if_neg hne, if_neg hhigh, if_neg hlow, Int.toNat_neg_natCast, neg_neg,
        Int.toNat_natCast, power_eq, power_eq, Nat.pow_zero, Nat.mul_one]
    rw [hquotient]
    exact truncate_ofRatio negative hv (Nat.pow_pos (by decide)).ne' hmost

end Compositing.Number
