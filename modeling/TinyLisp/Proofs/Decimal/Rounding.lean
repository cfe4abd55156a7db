import Mathlib
import TinyLisp.Decimal.Shortest

/-!
Rounding decimals to doubles.

A fraction that a double represents exactly is rounded to that double, whichever numerator and
denominator it is written with. So all the digits of a finite magnitude read back as it, and the
search for the shortest decimal, which falls back on them, always ends in a decimal that does.
-/

set_option autoImplicit false

namespace TinyLisp

namespace Fraction

/-- The number that a fraction stands for. -/
def toRat (fraction : Fraction) : ℚ :=
  fraction.numerator / fraction.denominator

theorem denominator_scale_pos (fraction : Fraction) (base : Nat) (exponent : Int)
    (denominator : 0 < fraction.denominator) (positive : 0 < base) :
    0 < (fraction.scale base exponent).denominator :=
  Nat.mul_pos denominator (Nat.pow_pos positive)

theorem to_rat_scale (fraction : Fraction) (base : Nat) (exponent : Int) (positive : 0 < base) :
    (fraction.scale base exponent).toRat = fraction.toRat * (base : ℚ) ^ exponent := by
  have nonzero : (base : ℚ) ≠ 0 := Nat.cast_ne_zero.mpr (Nat.ne_of_gt positive)
  have split : (base : ℚ) ^ exponent =
      (base : ℚ) ^ exponent.toNat / (base : ℚ) ^ (-exponent).toNat := by
    rw [← zpow_natCast, ← zpow_natCast, ← zpow_sub₀ nonzero]
    congr 1
    omega
  simp only [toRat, scale, Nat.pow_eq, Nat.cast_mul, Nat.cast_pow]
  rw [split, mul_div_mul_comm]

theorem one_le_floor_iff (fraction : Fraction) (denominator : 0 < fraction.denominator) :
    1 ≤ fraction.floor ↔ 1 ≤ fraction.toRat := by
  rw [floor, toRat, Nat.le_div_iff_mul_le denominator, Nat.one_mul,
    one_le_div (Nat.cast_pos.mpr denominator), Nat.cast_le]

theorem round_half_even_natural (fraction : Fraction) (natural : Nat)
    (denominator : 0 < fraction.denominator) (value : fraction.toRat = natural) :
    fraction.roundHalfEven = natural := by
  have multiple : fraction.numerator = natural * fraction.denominator := by
    rw [toRat, div_eq_iff (Nat.cast_ne_zero.mpr (Nat.ne_of_gt denominator))] at value
    exact_mod_cast value
  have remainder : fraction.twiceRemainder = 0 := by
    rw [twiceRemainder, multiple, Nat.mul_mod_left, Nat.mul_zero]
  rw [roundHalfEven, remainder, if_pos denominator, floor, multiple,
    Nat.mul_div_cancel _ denominator]

end Fraction

namespace Magnitude

/-- A binary logarithm bounds a nonzero number between two powers. -/
theorem log2_bounds (number : Nat) (nonzero : number ≠ 0) :
    (2 : ℚ) ^ (number.log2 : Int) ≤ number ∧ (number : ℚ) < 2 ^ ((number.log2 : Int) + 1) := by
  have low : 2 ^ number.log2 ≤ number := Nat.log2_self_le nonzero
  have high : number < 2 ^ (number.log2 + 1) := Nat.lt_log2_self
  constructor
  · exact_mod_cast low
  · exact_mod_cast high

/-- The place before the least exponent stops it. -/
def normalPlace (fraction : Fraction) : Int :=
  let estimate : Int := (fraction.numerator.log2 : Int) - fraction.denominator.log2
  if 1 ≤ (fraction.scale 2 (-estimate)).floor then estimate - 52 else estimate - 53

theorem normal_place_bounds (fraction : Fraction) (numerator : fraction.numerator ≠ 0)
    (denominator : 0 < fraction.denominator) :
    (2 : ℚ) ^ (normalPlace fraction + 52) ≤ fraction.toRat ∧
      fraction.toRat < 2 ^ (normalPlace fraction + 53) := by
  obtain ⟨numeratorLow, numeratorHigh⟩ := log2_bounds _ numerator
  obtain ⟨denominatorLow, denominatorHigh⟩ := log2_bounds _ (Nat.ne_of_gt denominator)
  have positive : (0 : ℚ) < fraction.denominator := Nat.cast_pos.mpr denominator
  unfold normalPlace
  set estimate : Int := (fraction.numerator.log2 : Int) - fraction.denominator.log2 with estimated
  have below : fraction.toRat < 2 ^ (estimate + 1) := by
    rw [Fraction.toRat, div_lt_iff₀ positive]
    calc (fraction.numerator : ℚ) < 2 ^ ((fraction.numerator.log2 : Int) + 1) := numeratorHigh
      _ = 2 ^ (estimate + 1) * 2 ^ (fraction.denominator.log2 : Int) := by
          rw [← zpow_add₀ two_ne_zero]
          congr 1
          omega
      _ ≤ 2 ^ (estimate + 1) * fraction.denominator :=
          mul_le_mul_of_nonneg_left denominatorLow (zpow_nonneg zero_le_two _)
  have above : (2 : ℚ) ^ (estimate - 1) ≤ fraction.toRat := by
    rw [Fraction.toRat, le_div_iff₀ positive]
    calc (2 : ℚ) ^ (estimate - 1) * fraction.denominator
        ≤ 2 ^ (estimate - 1) * 2 ^ ((fraction.denominator.log2 : Int) + 1) :=
          mul_le_mul_of_nonneg_left denominatorHigh.le (zpow_nonneg zero_le_two _)
      _ = 2 ^ (fraction.numerator.log2 : Int) := by
          rw [← zpow_add₀ two_ne_zero]
          congr 1
          omega
      _ ≤ fraction.numerator := numeratorLow
  have scaled : 1 ≤ (fraction.scale 2 (-estimate)).floor ↔ (2 : ℚ) ^ estimate ≤ fraction.toRat := by
    rw [Fraction.one_le_floor_iff _ (fraction.denominator_scale_pos 2 _ denominator two_pos),
      Fraction.to_rat_scale _ _ _ two_pos, zpow_neg, ← div_eq_mul_inv, Nat.cast_ofNat,
      one_le_div (zpow_pos two_pos _)]
  by_cases reached : 1 ≤ (fraction.scale 2 (-estimate)).floor
  · rw [if_pos reached, show estimate - 52 + 52 = estimate by omega,
      show estimate - 52 + 53 = estimate + 1 by omega]
    exact ⟨scaled.mp reached, below⟩
  · rw [if_neg reached, show estimate - 53 + 52 = estimate - 1 by omega,
      show estimate - 53 + 53 = estimate by omega]
    exact ⟨above, lt_of_not_ge fun least => reached (scaled.mpr least)⟩

/-- A fraction is a whole number of units of a binary place, with as many units as a double that
has this last place. -/
structure IsUnits (fraction : Fraction) (units : Nat) (place : Int) : Prop where
  denominator : 0 < fraction.denominator
  value : fraction.toRat = units * 2 ^ place
  positive : 0 < units
  short : units < 2 ^ 53
  least : -1074 ≤ place
  full : 2 ^ 52 ≤ units ∨ place = -1074

variable {fraction : Fraction} {units : Nat} {place : Int}

theorem IsUnits.numerator_ne_zero (exact : IsUnits fraction units place) :
    fraction.numerator ≠ 0 := by
  intro zero
  have value := exact.value
  rw [Fraction.toRat, zero, Nat.cast_zero, zero_div] at value
  have nonzero : (units : ℚ) * 2 ^ place ≠ 0 :=
    mul_ne_zero (Nat.cast_ne_zero.mpr (Nat.ne_of_gt exact.positive)) (zpow_ne_zero _ two_ne_zero)
  exact nonzero value.symm

theorem IsUnits.last_place (exact : IsUnits fraction units place) :
    lastPlace fraction = place := by
  obtain ⟨low, high⟩ :=
    normal_place_bounds fraction exact.numerator_ne_zero exact.denominator
  rw [exact.value] at low high
  have power : (0 : ℚ) < 2 ^ place := zpow_pos two_pos _
  have notAbove : normalPlace fraction ≤ place := by
    have bound : (2 : ℚ) ^ (normalPlace fraction + 52) < 2 ^ (place + 53) := by
      refine low.trans_lt ?_
      rw [zpow_add₀ two_ne_zero, mul_comm]
      refine mul_lt_mul_of_pos_left ?_ power
      exact_mod_cast exact.short
    have := (zpow_lt_zpow_iff_right₀ one_lt_two).mp bound
    omega
  change max (normalPlace fraction) (-1074) = place
  rcases exact.full with full | rfl
  · have bound : (2 : ℚ) ^ (place + 52) < 2 ^ (normalPlace fraction + 53) := by
      refine lt_of_le_of_lt ?_ high
      rw [zpow_add₀ two_ne_zero, mul_comm]
      refine mul_le_mul_of_nonneg_right ?_ power.le
      exact_mod_cast full
    have := (zpow_lt_zpow_iff_right₀ one_lt_two).mp bound
    have least := exact.least
    omega
  · exact max_eq_right notAbove

theorem IsUnits.nearest_fraction (exact : IsUnits fraction units place) :
    nearestFraction fraction = min infinity ((place + 1074).toNat * 2 ^ 52 + units) := by
  have rounded : (fraction.scale 2 (-place)).roundHalfEven = units := by
    apply Fraction.round_half_even_natural
    · exact fraction.denominator_scale_pos 2 _ exact.denominator two_pos
    · rw [Fraction.to_rat_scale _ _ _ two_pos, exact.value, Nat.cast_ofNat, mul_assoc,
        ← zpow_add₀ two_ne_zero, add_neg_cancel, zpow_zero, mul_one]
  rw [nearestFraction, if_neg exact.numerator_ne_zero, exact.last_place]
  exact congrArg (fun units => min infinity ((place + 1074).toNat * 2 ^ 52 + units)) rounded

/-- The units of a finite nonzero magnitude make it up again. -/
theorem to_fraction_units (magnitude : Nat) (positive : 0 < magnitude) :
    ∃ units place, IsUnits (toFraction magnitude) units place ∧
      (place + 1074).toNat * 2 ^ 52 + units = magnitude := by
  have split := Nat.div_add_mod magnitude (2 ^ 52)
  have bound : magnitude % 2 ^ 52 < 2 ^ 52 := Nat.mod_lt _ (by norm_num)
  have unscaled (units : Nat) : Fraction.toRat ⟨units, 1⟩ = units := by simp [Fraction.toRat]
  have scaled (units : Nat) (place : Int) :
      (Fraction.scale ⟨units, 1⟩ 2 place).toRat = units * 2 ^ place := by
    rw [Fraction.to_rat_scale _ _ _ two_pos, unscaled, Nat.cast_ofNat]
  have denominator (units : Nat) (place : Int) :
      0 < (Fraction.scale ⟨units, 1⟩ 2 place).denominator :=
    Fraction.denominator_scale_pos _ 2 _ Nat.one_pos two_pos
  simp only [toFraction, Nat.pow_eq]
  by_cases subnormal : magnitude / 2 ^ 52 = 0
  · rw [if_pos subnormal]
    refine ⟨magnitude % 2 ^ 52, -1074, ⟨denominator _ _, scaled _ _, ?_, ?_, le_rfl, .inr rfl⟩, ?_⟩
    all_goals omega
  · rw [if_neg subnormal]
    refine ⟨2 ^ 52 + magnitude % 2 ^ 52, ((magnitude / 2 ^ 52 : Nat) : Int) - 1075,
      ⟨denominator _ _, scaled _ _, ?_, ?_, ?_, .inl (Nat.le_add_right _ _)⟩, ?_⟩
    all_goals omega

/-- A fraction over a power of two has the value of all its decimal digits. -/
theorem all_digits_value (numerator places : Nat) :
    (allDigits ⟨numerator, 2 ^ places⟩).toFraction.toRat =
      Fraction.toRat ⟨numerator, 2 ^ places⟩ := by
  simp only [allDigits, Nat.pow_eq, Nat.log2_two_pow, Decimal.toFraction]
  rw [Fraction.to_rat_scale _ _ _ (by norm_num)]
  have ten : ((10 : Nat) : ℚ) ^ (-(places : Int)) = (2 ^ places * 5 ^ places)⁻¹ := by
    rw [zpow_neg, zpow_natCast, ← mul_pow]
    norm_num
  have five : (5 : ℚ) ^ places ≠ 0 := pow_ne_zero _ (by norm_num)
  simp only [Fraction.toRat, ten]
  push_cast
  field_simp

/-- The cutoffs for very large and very small decimals do not apply to all the digits of a fraction
over a power of two. -/
theorem nearest_all_digits (numerator places : Nat) (positive : 0 < numerator) :
    (allDigits ⟨numerator, 2 ^ places⟩).nearest =
      nearestFraction (allDigits ⟨numerator, 2 ^ places⟩).toFraction := by
  have digits : (allDigits ⟨numerator, 2 ^ places⟩).digits = numerator * 5 ^ places := by
    simp only [allDigits, Nat.pow_eq, Nat.log2_two_pow]
  have exponent : (allDigits ⟨numerator, 2 ^ places⟩).exponent = -(places : Int) := by
    simp only [allDigits, Nat.log2_two_pow]
  have nonzero : numerator * 5 ^ places ≠ 0 :=
    Nat.mul_ne_zero (Nat.ne_of_gt positive) (Nat.ne_of_gt (Nat.pow_pos (by norm_num)))
  have many : places ≤ (numerator * 5 ^ places).log2 := by
    rw [Nat.le_log2 nonzero]
    calc 2 ^ places ≤ 5 ^ places := Nat.pow_le_pow_left (by norm_num) _
      _ ≤ numerator * 5 ^ places := Nat.le_mul_of_pos_left _ positive
  rw [Decimal.nearest, digits, exponent, if_neg nonzero, if_neg (by omega), if_neg (by omega)]

theorem to_fraction_denominator (magnitude : Nat) :
    ∃ places, (toFraction magnitude).denominator = 2 ^ places := by
  simp only [toFraction, Fraction.scale, Nat.pow_eq, Nat.one_mul]
  split
  · exact ⟨_, rfl⟩
  · exact ⟨_, rfl⟩

/-- All the digits of a finite magnitude read back as it. -/
theorem nearest_all_digits_of_magnitude (magnitude : Nat) (positive : 0 < magnitude)
    (finite : magnitude < infinity) :
    (allDigits (toFraction magnitude)).nearest = magnitude := by
  obtain ⟨units, place, exact, whole⟩ := to_fraction_units magnitude positive
  obtain ⟨places, denominator⟩ := to_fraction_denominator magnitude
  have numerator := Nat.pos_of_ne_zero exact.numerator_ne_zero
  have shape : toFraction magnitude = ⟨(toFraction magnitude).numerator, 2 ^ places⟩ := by
    rw [← denominator]
  rw [shape] at exact ⊢
  rw [nearest_all_digits _ _ numerator]
  have digits : IsUnits (allDigits ⟨(toFraction magnitude).numerator, 2 ^ places⟩).toFraction
      units place :=
    { exact with
      denominator := Fraction.denominator_scale_pos _ 10 _ Nat.one_pos (by norm_num)
      value := (all_digits_value _ _).trans exact.value }
  rw [digits.nearest_fraction, whole]
  exact Nat.min_eq_right finite.le

theorem nearest_neighbour {magnitude : Nat} {exact : Fraction} {grid : Int} {decimal : Decimal}
    (found : neighbour? magnitude exact grid = some decimal) : decimal.nearest = magnitude := by
  unfold neighbour? at found
  extract_lets units lower upper closer further at found
  split at found
  case isTrue reads =>
    rwa [← Option.some.inj found]
  case isFalse =>
    split at found
    case isTrue reads =>
      rwa [← Option.some.inj found]
    case isFalse => contradiction

theorem nearest_search_grids (magnitude : Nat) (exact : Fraction) (grids : Nat) (grid : Int)
    (last : (allDigits exact).nearest = magnitude) :
    (searchGrids magnitude exact grids grid).nearest = magnitude := by
  induction grids generalizing grid with
  | zero => exact last
  | succ grids ih =>
      rw [searchGrids]
      cases found : neighbour? magnitude exact grid with
      | some decimal => exact nearest_neighbour found
      | none => exact ih (grid - 1)

/-- The shortest decimal of a finite magnitude reads back as it. -/
theorem nearest_shortest (magnitude : Nat) (positive : 0 < magnitude)
    (finite : magnitude < infinity) : (shortest magnitude).nearest = magnitude :=
  nearest_search_grids magnitude _ _ _
    (nearest_all_digits_of_magnitude magnitude positive finite)

end Magnitude

end TinyLisp
