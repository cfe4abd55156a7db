import TinyLisp.Numeral.Reader
import TinyLisp.Proofs.Binary64
import TinyLisp.Proofs.Decimal.Rounding

/-!
Overflow.

The greatest finite double is 2 ^ 1024 - 2 ^ 971, and the next number on its grid is 2 ^ 1024. The
middle between the two goes to the even one, which is the latter, so the decimals from that middle
on are infinite as doubles and those below it are not.
-/

set_option autoImplicit false

namespace TinyLisp

namespace Fraction

theorem half_below_even_iff (fraction : Fraction) (half : Nat)
    (denominator : 0 < fraction.denominator) :
    2 * (half : ℚ) - 1 / 2 ≤ fraction.toRat ↔
      4 * (half * fraction.denominator) ≤ 2 * fraction.numerator + fraction.denominator := by
  rw [toRat, le_div_iff₀ (Nat.cast_pos.mpr denominator)]
  constructor
  · intro bound
    have doubled : 4 * ((half : ℚ) * fraction.denominator) ≤
        2 * fraction.numerator + fraction.denominator := by linarith
    exact_mod_cast doubled
  · intro bound
    have doubled : 4 * ((half : ℚ) * fraction.denominator) ≤
        2 * fraction.numerator + fraction.denominator := by exact_mod_cast bound
    linarith

/-- An even number is reached by rounding from half a unit below it on. -/
theorem even_le_round_iff (fraction : Fraction) (half : Nat)
    (denominator : 0 < fraction.denominator) :
    2 * half ≤ fraction.roundHalfEven ↔ 2 * (half : ℚ) - 1 / 2 ≤ fraction.toRat := by
  have split := Nat.div_add_mod' fraction.numerator fraction.denominator
  have remainder := Nat.mod_lt fraction.numerator denominator
  rw [half_below_even_iff fraction half denominator, roundHalfEven, twiceRemainder, floor]
  generalize fraction.numerator / fraction.denominator = quotient at split ⊢
  generalize fraction.numerator % fraction.denominator = rest at split remainder ⊢
  -- Only the number behind the quotient depends on the remainder.
  rcases lt_trichotomy (2 * half) (quotient + 1) with below | same | above
  · have product : 2 * (half * fraction.denominator) ≤ quotient * fraction.denominator := by
      rw [← Nat.mul_assoc]
      exact Nat.mul_le_mul_right _ (Nat.le_of_lt_succ below)
    split_ifs <;> omega
  · have product : 2 * (half * fraction.denominator) =
        quotient * fraction.denominator + fraction.denominator := by
      rw [← Nat.mul_assoc, same, Nat.succ_mul]
    split_ifs <;> omega
  · have product : quotient * fraction.denominator + 2 * fraction.denominator ≤
        2 * (half * fraction.denominator) := by
      rw [← Nat.mul_assoc, ← Nat.add_mul]
      exact Nat.mul_le_mul_right _ above
    split_ifs <;> omega

end Fraction

namespace Magnitude

/-- The middle between the greatest finite double and the next number on its grid. -/
def overflow : ℚ := 2 ^ 1024 - 2 ^ 970

theorem overflow_eq : overflow = (2 * (2 ^ 52 : Nat) - 1 / 2) * 2 ^ (971 : Int) := by
  have power : (2 : ℚ) ^ 1024 = 2 ^ 53 * 2 ^ 971 := by rw [← pow_add]
  have half : (2 : ℚ) ^ 971 = 2 ^ 970 * 2 := pow_succ 2 970
  have place : (2 : ℚ) ^ (971 : Int) = 2 ^ 971 := zpow_natCast 2 971
  rw [overflow, power, place, half]
  generalize (2 : ℚ) ^ 970 = unit
  push_cast
  ring

theorem overflow_le : overflow ≤ 2 ^ (1024 : Int) :=
  sub_le_self _ (pow_nonneg zero_le_two 970)

theorem lt_overflow : (2 : ℚ) ^ (1023 : Int) < overflow := by
  have power : (2 : ℚ) ^ (1023 : Int) = 2 ^ (52 : Int) * 2 ^ (971 : Int) := by
    rw [← zpow_add₀ two_ne_zero]
    rfl
  rw [overflow_eq, power]
  refine mul_lt_mul_of_pos_right ?_ (zpow_pos two_pos 971)
  norm_num

theorem one_lt_overflow : 1 < overflow :=
  (one_lt_zpow₀ one_lt_two (by norm_num)).trans lt_overflow

/-- The units of its last place that a fraction has. -/
theorem units_bounds (fraction : Fraction) (numerator : fraction.numerator ≠ 0)
    (denominator : 0 < fraction.denominator) :
    fraction.toRat < 2 ^ (lastPlace fraction + 53) ∧
      (lastPlace fraction = -1074 ∨ 2 ^ (lastPlace fraction + 52) ≤ fraction.toRat) := by
  obtain ⟨low, high⟩ := normal_place_bounds fraction numerator denominator
  change fraction.toRat < 2 ^ (max (normalPlace fraction) (-1074) + 53) ∧
    (max (normalPlace fraction) (-1074) = -1074 ∨
      2 ^ (max (normalPlace fraction) (-1074) + 52) ≤ fraction.toRat)
  constructor
  · refine high.trans_le (zpow_le_zpow_right₀ one_le_two ?_)
    omega
  · rcases le_total (normalPlace fraction) (-1074) with least | normal
    · exact .inl (max_eq_right least)
    · rw [max_eq_left normal]
      exact .inr low

theorem even_le_units_iff (fraction : Fraction) (half : Nat) (place : Int)
    (denominator : 0 < fraction.denominator) :
    2 * half ≤ (fraction.scale 2 (-place)).roundHalfEven ↔
      (2 * (half : ℚ) - 1 / 2) * 2 ^ place ≤ fraction.toRat := by
  rw [Fraction.even_le_round_iff _ _ (fraction.denominator_scale_pos 2 _ denominator two_pos),
    Fraction.to_rat_scale _ _ _ two_pos, Nat.cast_ofNat, zpow_neg, ← div_eq_mul_inv,
    le_div_iff₀ (zpow_pos two_pos place)]

theorem nearest_fraction_infinite_iff (fraction : Fraction)
    (denominator : 0 < fraction.denominator) :
    nearestFraction fraction = infinity ↔ overflow ≤ fraction.toRat := by
  by_cases zero : fraction.numerator = 0
  · have value : fraction.toRat = 0 := by simp [Fraction.toRat, zero]
    rw [nearestFraction, if_pos zero, value]
    exact iff_of_false (by decide) (not_le_of_gt (one_pos.trans one_lt_overflow))
  · obtain ⟨high, low⟩ := units_bounds fraction zero denominator
    have reached (half : Nat) :=
      even_le_units_iff fraction half (lastPlace fraction) denominator
    simp only [nearestFraction, if_neg zero, min_eq_left_iff, infinity, Nat.pow_eq]
    generalize lastPlace fraction = place at high low reached ⊢
    have power : (0 : ℚ) < 2 ^ place := zpow_pos two_pos place
    generalize (fraction.scale 2 (-place)).roundHalfEven = units at reached ⊢
    rcases lt_trichotomy place 971 with fine | last | coarse
    · have short : ¬2 * (2 ^ 52 + 1) ≤ units := by
        rw [reached, not_le]
        refine high.trans_le ?_
        rw [zpow_add₀ two_ne_zero, mul_comm]
        exact mul_le_mul_of_nonneg_right (by norm_num) power.le
      have small : fraction.toRat < overflow :=
        calc fraction.toRat < 2 ^ (place + 53) := high
          _ ≤ 2 ^ (1023 : Int) := zpow_le_zpow_right₀ one_le_two (by omega)
          _ < overflow := lt_overflow
      exact iff_of_false (by omega) (not_le_of_gt small)
    · rw [overflow_eq, ← last, ← reached]
      omega
    · have large : 2 ^ (place + 52) ≤ fraction.toRat := low.resolve_left (by omega)
      have many : 2 * 2 ^ 51 ≤ units := by
        rw [reached]
        refine le_trans ?_ large
        rw [zpow_add₀ two_ne_zero, mul_comm ((2 : ℚ) ^ place)]
        exact mul_le_mul_of_nonneg_right (by norm_num) power.le
      have above : overflow ≤ fraction.toRat :=
        calc overflow ≤ 2 ^ (1024 : Int) := overflow_le
          _ ≤ 2 ^ (place + 52) := zpow_le_zpow_right₀ one_le_two (by omega)
          _ ≤ fraction.toRat := large
      exact iff_of_true (by omega) above

end Magnitude

namespace Decimal

theorem to_rat_to_fraction (decimal : Decimal) :
    decimal.toFraction.toRat = decimal.digits * 10 ^ decimal.exponent := by
  rw [toFraction, Fraction.to_rat_scale _ _ _ (by norm_num)]
  simp [Fraction.toRat]

theorem overflow_le_of_large {decimal : Decimal} (nonzero : decimal.digits ≠ 0)
    (large : 310 < decimal.exponent) : Magnitude.overflow ≤ decimal.toFraction.toRat := by
  have powers : (2 : ℚ) ^ (1024 : Int) ≤ 10 ^ (311 : Int) := by
    have natural : 2 ^ 1024 ≤ 10 ^ 311 := by decide +kernel
    exact_mod_cast natural
  have digits : (1 : ℚ) ≤ decimal.digits := Nat.one_le_cast.mpr (Nat.one_le_iff_ne_zero.mpr nonzero)
  calc Magnitude.overflow ≤ 2 ^ (1024 : Int) := Magnitude.overflow_le
    _ ≤ 10 ^ (311 : Int) := powers
    _ ≤ 10 ^ decimal.exponent := zpow_le_zpow_right₀ (by norm_num) large
    _ ≤ decimal.digits * 10 ^ decimal.exponent :=
        le_mul_of_one_le_left (zpow_nonneg (by norm_num) _) digits
    _ = decimal.toFraction.toRat := decimal.to_rat_to_fraction.symm

theorem lt_overflow_of_small {decimal : Decimal} (nonzero : decimal.digits ≠ 0)
    (small : decimal.exponent + decimal.digits.log2 < -325) :
    decimal.toFraction.toRat < Magnitude.overflow := by
  obtain ⟨-, short⟩ := Magnitude.log2_bounds decimal.digits nonzero
  have powers : (2 : ℚ) ^ ((decimal.digits.log2 : Int) + 1) ≤
      10 ^ ((decimal.digits.log2 : Int) + 1) :=
    zpow_le_zpow_left₀ (by omega) zero_le_two (by norm_num)
  calc decimal.toFraction.toRat = decimal.digits * 10 ^ decimal.exponent :=
        decimal.to_rat_to_fraction
    _ ≤ 10 ^ ((decimal.digits.log2 : Int) + 1) * 10 ^ decimal.exponent :=
        mul_le_mul_of_nonneg_right (short.le.trans powers) (zpow_nonneg (by norm_num) _)
    _ = 10 ^ ((decimal.digits.log2 : Int) + 1 + decimal.exponent) :=
        (zpow_add₀ (by norm_num) _ _).symm
    _ ≤ 1 := zpow_le_one_of_nonpos₀ (by norm_num) (by omega)
    _ < Magnitude.overflow := Magnitude.one_lt_overflow

/-- A decimal is infinite as a double exactly from the overflow on. -/
theorem nearest_infinite_iff (decimal : Decimal) :
    decimal.nearest = Magnitude.infinity ↔ Magnitude.overflow ≤ decimal.toFraction.toRat := by
  rw [nearest]
  split_ifs with zero large small
  · have value : decimal.toFraction.toRat = 0 := by simp [to_rat_to_fraction, zero]
    rw [value]
    exact iff_of_false (by decide) (not_le_of_gt (one_pos.trans Magnitude.one_lt_overflow))
  · exact iff_of_true rfl (overflow_le_of_large zero large)
  · exact iff_of_false (by decide) (not_le_of_gt (lt_overflow_of_small zero small))
  · exact Magnitude.nearest_fraction_infinite_iff _
      (Fraction.denominator_scale_pos _ 10 _ Nat.one_pos (by norm_num))

theorem nearest_le_infinity (decimal : Decimal) : decimal.nearest ≤ Magnitude.infinity := by
  rw [nearest]
  split_ifs
  · exact Nat.zero_le _
  · exact le_rfl
  · exact Nat.zero_le _
  · rw [Magnitude.nearestFraction]
    split
    · exact Nat.zero_le _
    · exact Nat.min_le_left _ _

end Decimal

/-- A decimal with a sign overflows from the same number on. -/
theorem Numeral.not_finite_of_decimal_iff (negative : Bool) (decimal : Decimal) :
    (ofDecimal negative decimal).isFinite = false ↔
      Magnitude.overflow ≤ decimal.toFraction.toRat := by
  have bound : decimal.nearest ≤ 2047 * 2 ^ 52 := decimal.nearest_le_infinity
  have magnitude : ((if negative then 2 ^ 63 else 0) + decimal.nearest) % 2 ^ 64 % 2 ^ 63 =
      decimal.nearest := by
    split <;> omega
  have bits : (ofDecimal negative decimal).toBits.toNat % 2 ^ 63 = decimal.nearest := by
    rw [ofDecimal, Binary64.to_bits_of_bits]
    · exact magnitude
    · exact magnitude.trans_le bound
  rw [← decimal.nearest_infinite_iff, ← Bool.not_eq_true, Binary64.is_finite_iff, bits,
    Magnitude.infinity, Nat.pow_eq]
  omega

end TinyLisp
