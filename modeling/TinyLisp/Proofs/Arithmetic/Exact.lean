import TinyLisp.Proofs.Binary64
import TinyLisp.Proofs.Decimal.Rounding

/-!
Doubles as numbers.

A finite double is a whole number of units of a binary place. Rounding leaves a number of that form
as it is, however its mantissa and exponent are chosen, so a sum or a product that has the form is
exact. The integers up to 2 ^ 53 have it.
-/

set_option autoImplicit false

namespace TinyLisp

namespace Magnitude

open Float.Model Float.Model.UnpackedFloat

/-- A mantissa times a power of two. -/
def scaled (mantissa : Nat) (exponent : Int) : Fraction :=
  Fraction.scale ⟨mantissa, 1⟩ 2 exponent

@[simp] theorem to_rat_scaled (mantissa : Nat) (exponent : Int) :
    (scaled mantissa exponent).toRat = mantissa * 2 ^ exponent := by
  rw [scaled, Fraction.to_rat_scale _ _ _ two_pos]
  simp [Fraction.toRat]

theorem denominator_scaled_pos (mantissa : Nat) (exponent : Int) :
    0 < (scaled mantissa exponent).denominator :=
  Fraction.denominator_scale_pos _ 2 _ Nat.one_pos two_pos

variable {fraction : Fraction} {units : Nat} {place : Int}

theorem IsUnits.of_value (exact : IsUnits fraction units place) {mantissa : Nat} {exponent : Int}
    (value : (mantissa : ℚ) * 2 ^ exponent = fraction.toRat) :
    IsUnits (scaled mantissa exponent) units place :=
  { exact with
    denominator := denominator_scaled_pos mantissa exponent
    value := by rw [to_rat_scaled, value, exact.value] }

theorem IsUnits.target (exact : IsUnits fraction units place) :
    Format.binary64.targetExponent (totalExponent units place) = place := by
  have short : units.log2 < 53 := (Nat.log2_lt (Nat.ne_of_gt exact.positive)).mpr exact.short
  have least := exact.least
  change max ((units.log2 : Int) + 1 + place - 53) (-1074) = place
  rcases exact.full with full | lowest
  · have long : 52 ≤ units.log2 := (Nat.le_log2 (Nat.ne_of_gt exact.positive)).mpr full
    omega
  · omega

theorem log2_mul_two_pow {number : Nat} (nonzero : number ≠ 0) (shift : Nat) :
    (number * 2 ^ shift).log2 = number.log2 + shift := by
  have positive : 0 < 2 ^ shift := Nat.two_pow_pos shift
  rw [Nat.log2_eq_iff (Nat.mul_ne_zero nonzero (Nat.ne_of_gt positive))]
  constructor
  · rw [Nat.pow_add]
    exact Nat.mul_le_mul_right _ (Nat.log2_self_le nonzero)
  · rw [Nat.add_right_comm, Nat.pow_add]
    exact Nat.mul_lt_mul_of_pos_right Nat.lt_log2_self positive

theorem total_exponent_shifted {mantissa : Nat} (nonzero : mantissa ≠ 0) (shift : Nat)
    (exponent : Int) :
    totalExponent (mantissa * 2 ^ shift) exponent = totalExponent mantissa (exponent + shift) := by
  unfold totalExponent
  rw [log2_mul_two_pow nonzero]
  omega

/-- Shifting out zeros leaves nothing to round. -/
theorem shift_right_exact (units shift : Nat) :
    (⟨units * 2 ^ shift, false, false⟩ : ExtendedMantissa) >>> shift = ⟨units, false, false⟩ := by
  change shift.repeat ExtendedMantissa.shiftRightOne _ = _
  induction shift generalizing units with
  | zero => simp [Nat.repeat]
  | succ shift ih =>
      rw [Nat.repeat, Nat.pow_succ, ← Nat.mul_assoc, Nat.mul_right_comm, ih]
      simp [ExtendedMantissa.shiftRightOne]

theorem IsUnits.round_shifted (exact : IsUnits fraction units place) (sign : Sign) {shift : Nat}
    {exponent : Int} (shifted : exponent + shift = place) :
    roundWithAccuracy Format.binary64 sign (units * 2 ^ shift) exponent .exact =
      .finite sign units place exact.positive := by
  have nonzero : units ≠ 0 := Nat.ne_of_gt exact.positive
  have first : shiftToTargetExponent Format.binary64 (units * 2 ^ shift) exponent .exact =
      (⟨units, false, false⟩, place) := by
    rw [shiftToTargetExponent, total_exponent_shifted nonzero, shifted, exact.target,
      shiftToExponent, show (place - exponent).toNat = shift by omega]
    exact Prod.ext (shift_right_exact units shift) shifted
  have second : shiftToTargetExponent Format.binary64 units place .exact =
      (⟨units, false, false⟩, place) := by
    rw [shiftToTargetExponent, exact.target, shiftToExponent, Int.sub_self]
    exact Prod.ext rfl (Int.add_zero place)
  have whole : ExtendedMantissa.roundedMantissa ⟨units, false, false⟩ = units := rfl
  rw [roundWithAccuracy, first]
  simp only [whole, second]
  rw [dif_neg nonzero]

theorem eq_shifted {left right : Nat} {leftPlace rightPlace : Int}
    (same : (left : ℚ) * 2 ^ leftPlace = right * 2 ^ rightPlace) {shift : Nat}
    (shifted : leftPlace + shift = rightPlace) : left = right * 2 ^ shift := by
  have power : (2 : ℚ) ^ leftPlace ≠ 0 := zpow_ne_zero _ two_ne_zero
  rw [← shifted, zpow_add₀ two_ne_zero, zpow_natCast, mul_comm ((2 : ℚ) ^ leftPlace),
    ← mul_assoc] at same
  have cancelled := mul_right_cancel₀ power same
  exact_mod_cast cancelled

theorem place_le_of_lt {left right : Nat} {leftPlace rightPlace : Int}
    (same : (left : ℚ) * 2 ^ leftPlace = right * 2 ^ rightPlace) (fewer : right < left) :
    leftPlace ≤ rightPlace := by
  by_contra finer
  have shifted : rightPlace + (leftPlace - rightPlace).toNat = leftPlace := by omega
  have many : left ≤ left * 2 ^ (leftPlace - rightPlace).toNat :=
    Nat.le_mul_of_pos_right left (Nat.two_pow_pos _)
  rw [← eq_shifted same.symm shifted] at many
  exact Nat.not_le_of_lt fewer many

theorem IsUnits.full_of_one_le (exact : IsUnits fraction units place)
    (large : 1 ≤ fraction.toRat) : 2 ^ 52 ≤ units := by
  refine exact.full.resolve_right fun lowest => ?_
  have short : (units : ℚ) < 2 ^ (53 : Int) := by exact_mod_cast exact.short
  have tiny : fraction.toRat < 1 := by
    calc fraction.toRat = units * 2 ^ (-1074 : Int) := by rw [exact.value, lowest]
      _ < 2 ^ (53 : Int) * 2 ^ (-1074 : Int) := mul_lt_mul_of_pos_right short (zpow_pos two_pos _)
      _ = 2 ^ (-1021 : Int) := by rw [← zpow_add₀ two_ne_zero]; rfl
      _ ≤ 1 := zpow_le_one_of_nonpos₀ one_le_two (by norm_num)
  exact not_le_of_gt tiny large

/-- Rounding leaves units of a double's place as they are. -/
theorem IsUnits.round {mantissa : Nat} {exponent : Int}
    (exact : IsUnits (scaled mantissa exponent) units place) (sign : Sign) :
    UnpackedFloat.round Format.binary64 sign mantissa exponent =
      .finite sign units place exact.positive := by
  have value := exact.value
  rw [to_rat_scaled] at value
  by_cases fine : exponent ≤ place
  · have shifted : exponent + (place - exponent).toNat = place := by omega
    have mantissaEq := eq_shifted value shifted
    have target : Format.binary64.targetExponent (totalExponent mantissa exponent) = place := by
      rw [mantissaEq, total_exponent_shifted (Nat.ne_of_gt exact.positive), shifted, exact.target]
    have unmoved : decreaseExponent mantissa exponent place = (mantissa, exponent) := by
      rw [decreaseExponent, Int.toNat_of_nonpos (by omega)]
      exact Prod.ext rfl (Int.sub_zero exponent)
    have rounded := exact.round_shifted sign shifted
    rw [← mantissaEq] at rounded
    rw [UnpackedFloat.round, target, unmoved]
    exact rounded
  · have shifted : place + (exponent - place).toNat = exponent := by omega
    have unitsEq := eq_shifted value.symm shifted
    have nonzero : mantissa ≠ 0 := by
      intro zero
      rw [zero, Nat.zero_mul] at unitsEq
      exact Nat.ne_of_gt exact.positive unitsEq
    have target : Format.binary64.targetExponent (totalExponent mantissa exponent) = place := by
      rw [← shifted, ← total_exponent_shifted nonzero, ← unitsEq, exact.target]
    have moved : decreaseExponent mantissa exponent place = (units, place) := by
      rw [decreaseExponent, Nat.shiftLeft_eq, ← unitsEq]
      exact Prod.ext rfl (show exponent - ((exponent - place).toNat : Int) = place by omega)
    have rounded := exact.round_shifted sign (Int.add_zero place)
    rw [Nat.pow_zero, Nat.mul_one] at rounded
    rw [UnpackedFloat.round, target, moved]
    exact rounded

theorem IsUnits.unique {otherUnits : Nat} {otherPlace : Int}
    (exact : IsUnits fraction units place) (other : IsUnits fraction otherUnits otherPlace) :
    units = otherUnits ∧ place = otherPlace := by
  have first := (exact.of_value exact.value.symm).round .positive
  have second := (other.of_value exact.value.symm).round .positive
  have same := first.symm.trans second
  injection same with _ sameUnits samePlace
  exact ⟨sameUnits, samePlace⟩

/-- Every natural number up to 2 ^ 53 is a number of units that a double can have. -/
theorem exists_units_of_natural {natural : Nat} (positive : 0 < natural)
    (bounded : natural ≤ 2 ^ 53) :
    ∃ units place, IsUnits ⟨natural, 1⟩ units place ∧ place ≤ 971 := by
  have value (units : Nat) (place : Int) (same : (natural : ℚ) = units * 2 ^ place) :
      Fraction.toRat ⟨natural, 1⟩ = units * 2 ^ place := by
    simpa [Fraction.toRat] using same
  by_cases greatest : natural = 2 ^ 53
  · refine ⟨2 ^ 52, 1, ⟨Nat.one_pos, value _ _ ?_, ?_, ?_, ?_, .inl le_rfl⟩, ?_⟩
    · rw [greatest]
      norm_num
    all_goals norm_num
  · have nonzero : natural ≠ 0 := Nat.ne_of_gt positive
    have short : natural.log2 < 53 :=
      (Nat.log2_lt nonzero).mpr (Nat.lt_of_le_of_ne bounded greatest)
    obtain ⟨shift, shifted⟩ := Nat.exists_eq_add_of_le' (Nat.le_of_lt_succ short)
    have low : 2 ^ 52 ≤ natural * 2 ^ shift := by
      rw [shifted, Nat.add_comm, Nat.pow_add]
      exact Nat.mul_le_mul_right _ (Nat.log2_self_le nonzero)
    have high : natural * 2 ^ shift < 2 ^ 53 := by
      rw [show 53 = natural.log2 + 1 + shift by omega, Nat.pow_add]
      exact Nat.mul_lt_mul_of_pos_right Nat.lt_log2_self (Nat.two_pow_pos shift)
    have positiveUnits : 0 < natural * 2 ^ shift := Nat.mul_pos positive (Nat.two_pow_pos shift)
    refine ⟨natural * 2 ^ shift, -(shift : Int),
      ⟨Nat.one_pos, value _ _ ?_, positiveUnits, high, by omega, .inl low⟩, by omega⟩
    rw [zpow_neg, zpow_natCast, Nat.cast_mul, Nat.cast_pow, Nat.cast_ofNat,
      mul_inv_cancel_right₀ (pow_ne_zero _ two_ne_zero)]

end Magnitude

namespace Binary64

open Float.Model Float.Model.UnpackedFloat Magnitude

theorem sign_of_parts {format : Format} (sign : Sign) (exponent : BitVec format.exponentBits)
    (mantissa : BitVec format.mantissaBitsWithoutImplicit) :
    Sign.ofBitVec (unpackSign (packComponents format sign exponent mantissa)) = sign := by
  have bit : unpackSign (packComponents format sign exponent mantissa) = sign.toBitVec := by
    apply BitVec.eq_of_getLsbD_eq
    intro index bound
    obtain rfl : index = 0 := Nat.lt_one_iff.mp bound
    simp [unpackSign, packComponents, BitVec.getLsbD_append, BitVec.getElem_append]
  rw [bit]
  cases sign <;> rfl

theorem unpack_subnormal_parts (sign : Sign) (mantissa : BitVec 52)
    (positive : 0 < mantissa.toNat) :
    UnpackedFloat.unpack Format.binary64 (packComponents Format.binary64 sign 0 mantissa) =
      .finite sign mantissa.toNat (-1074) positive := by
  have nonzero : mantissa ≠ 0#_ := by
    intro zero
    rw [zero] at positive
    exact Nat.lt_irrefl 0 positive
  simp only [UnpackedFloat.unpack, unpackExponent_packComponents, unpackMantissa_packComponents,
    sign_of_parts]
  rw [if_neg (by decide), if_pos (by decide), dif_neg nonzero]
  rfl

theorem unpack_normal_parts (sign : Sign) (exponent : BitVec 11) (mantissa : BitVec 52)
    (below : exponent ≠ -1#_) (nonzero : exponent ≠ 0#_)
    (positive : 0 < (1#1 ++ mantissa).toNat) :
    UnpackedFloat.unpack Format.binary64 (packComponents Format.binary64 sign exponent mantissa) =
      .finite sign (1#1 ++ mantissa).toNat (exponent.toNat - 1075) positive := by
  simp only [UnpackedFloat.unpack, unpackExponent_packComponents, unpackMantissa_packComponents,
    sign_of_parts]
  rw [if_neg below, if_neg nonzero]
  rfl

/-- Units of a place that a double has are stored as they are. -/
theorem unpack_pack_units {fraction : Fraction} {units : Nat} {place : Int}
    (exact : IsUnits fraction units place) (finite : place ≤ 971) (sign : Sign) :
    UnpackedFloat.unpack Format.binary64
        (UnpackedFloat.pack Format.binary64 (.finite sign units place exact.positive)) =
      .finite sign units place exact.positive := by
  have short := exact.short
  have least := exact.least
  by_cases normal : 2 ^ 52 ≤ units
  · let exponent : BitVec 11 := BitVec.ofNat 11 (place + 1075).toNat
    let mantissa : BitVec 52 := BitVec.ofNat 52 units
    have field : exponent.toNat = (place + 1075).toNat := by
      rw [BitVec.toNat_ofNat]
      omega
    have unitsEq : units = (1#1 ++ mantissa).toNat := by
      rw [implicit_bit, BitVec.toNat_ofNat]
      omega
    have placeEq : place = exponent.toNat - 1075 := by omega
    have below : exponent ≠ -1#_ := by
      intro full
      have := congrArg BitVec.toNat full
      rw [field, show (-1#11).toNat = 2047 from rfl] at this
      omega
    have nonzero : exponent ≠ 0#_ := by
      intro zero
      have := congrArg BitVec.toNat zero
      rw [field, BitVec.toNat_zero] at this
      omega
    have positive := exact.positive
    rw [unitsEq] at positive
    have same : UnpackedFloat.finite sign units place exact.positive =
        .finite sign (1#1 ++ mantissa).toNat (exponent.toNat - 1075) positive := by
      congr
    rw [same, pack_normal sign exponent mantissa below positive,
      unpack_normal_parts sign exponent mantissa below nonzero positive]
  · let mantissa : BitVec 52 := BitVec.ofNat 52 units
    have unitsEq : units = mantissa.toNat := by
      rw [BitVec.toNat_ofNat]
      omega
    have positive := exact.positive
    rw [unitsEq] at positive
    have same : UnpackedFloat.finite sign units place exact.positive =
        .finite sign mantissa.toNat (-1074) positive := by
      congr
      exact exact.full.resolve_left normal
    rw [same, pack_subnormal sign mantissa positive, unpack_subnormal_parts sign mantissa positive]

theorem units_of_unpack {bits : BitVec Format.binary64.numBits} {sign : Sign} {units : Nat}
    {place : Int} {positive : 0 < units}
    (unpacked : UnpackedFloat.unpack Format.binary64 bits = .finite sign units place positive) :
    IsUnits (scaled units place) units place := by
  have mantissaBound : (unpackMantissa bits).toNat < 2 ^ 52 := (unpackMantissa bits).isLt
  have value := to_rat_scaled units place
  have denominator := denominator_scaled_pos units place
  rw [UnpackedFloat.unpack] at unpacked
  by_cases full : unpackExponent bits = -1#_
  · rw [if_pos full] at unpacked
    split at unpacked <;> contradiction
  · rw [if_neg full] at unpacked
    by_cases lowest : unpackExponent bits = 0#_
    · rw [if_pos lowest] at unpacked
      split at unpacked
      · contradiction
      · injection unpacked with _ unitsEq placeEq
        rw [lowest] at placeEq
        have placeLeast : place = -1074 := placeEq.symm
        exact ⟨denominator, value, positive, by omega, by omega, .inr placeLeast⟩
    · rw [if_neg lowest] at unpacked
      injection unpacked with _ unitsEq placeEq
      have normalUnits : 2 ^ 52 + (unpackMantissa bits).toNat = units := by
        rw [← unitsEq]
        exact (implicit_bit _).symm
      have fieldPositive : 0 < (unpackExponent bits).toNat := by
        apply Nat.pos_of_ne_zero
        intro zero
        exact lowest (BitVec.eq_of_toNat_eq zero)
      have normalPlace : ((unpackExponent bits).toNat : Int) - 1075 = place := placeEq
      exact ⟨denominator, value, positive, by omega, by omega, .inl (by omega)⟩

/-- The number that an unpacked double stands for, if it is finite. -/
def rationalOf : UnpackedFloat → Option ℚ
  | .notANumber => none
  | .infinity _ => none
  | .zero _ => some 0
  | .finite sign mantissa exponent _ => some (sign.apply mantissa * 2 ^ exponent)

/-- The number that a double stands for, if it is finite. -/
def rational? (value : Float) : Option ℚ :=
  rationalOf value.toModel.unpack

/-- A double that stands for an integer. -/
def IsInteger (value : Float) (integer : Int) : Prop :=
  rational? value = some (integer : ℚ)

theorem is_integer_zero (sign : Sign) : IsInteger (.ofModel (.pack (.zero sign))) 0 := by
  cases sign <;> rfl

theorem pack_unpacked (value : Float) : Float.ofModel (.pack value.toModel.unpack) = value :=
  of_bits_to_bits value

theorem is_integer_units {natural units : Nat} {place : Int}
    (exact : IsUnits ⟨natural, 1⟩ units place) (finite : place ≤ 971) (sign : Sign) :
    IsInteger (.ofModel (.pack (.finite sign units place exact.positive)))
      (sign.apply natural) := by
  have value : (natural : ℚ) = units * 2 ^ place := by
    rw [← exact.value]
    simp [Fraction.toRat]
  change rationalOf (UnpackedFloat.unpack _ (UnpackedFloat.pack _ _)) = _
  rw [unpack_pack_units exact finite sign]
  cases sign <;> simp [rationalOf, Sign.apply, value]

/-- The integers up to 2 ^ 53 are not changed by rounding. -/
theorem is_integer_round {mantissa natural : Nat} {exponent : Int}
    (value : (mantissa : ℚ) * 2 ^ exponent = natural) (positive : 0 < natural)
    (bounded : natural ≤ 2 ^ 53) (sign : Sign) :
    IsInteger (.ofModel (.pack (UnpackedFloat.round Format.binary64 sign mantissa exponent)))
      (sign.apply natural) := by
  obtain ⟨units, place, exact, finite⟩ := exists_units_of_natural positive bounded
  have rounded : IsUnits (scaled mantissa exponent) units place :=
    exact.of_value (by simpa [Fraction.toRat] using value)
  rw [rounded.round]
  exact is_integer_units exact finite sign

/-- The sign and the magnitude of an integer that is given by a signed mantissa. -/
theorem signed_parts {sign : Sign} {mantissa : Nat} {exponent integer : Int}
    (positive : 0 < mantissa)
    (value : ((sign.apply mantissa : Int) : ℚ) * 2 ^ exponent = integer) :
    integer = sign.apply integer.natAbs ∧ (mantissa : ℚ) * 2 ^ exponent = integer.natAbs ∧
      0 < integer.natAbs := by
  have magnitude : (0 : ℚ) < mantissa * 2 ^ exponent :=
    mul_pos (Nat.cast_pos.mpr positive) (zpow_pos two_pos _)
  cases sign with
  | negative =>
      rw [Sign.apply, Int.cast_neg, Int.cast_natCast, neg_mul] at value
      have below : (integer : ℚ) < 0 := by linarith
      have negative : integer < 0 := by exact_mod_cast below
      have natural : ((integer.natAbs : Int) : ℚ) = -integer := by
        rw [Int.ofNat_natAbs_of_nonpos negative.le, Int.cast_neg]
      rw [Int.cast_natCast] at natural
      refine ⟨?_, by rw [natural, ← value, neg_neg], by omega⟩
      rw [Sign.apply]
      omega
  | positive =>
      rw [Sign.apply, Int.cast_natCast] at value
      have above : (0 : ℚ) < integer := by linarith
      have positiveInteger : 0 < integer := by exact_mod_cast above
      have natural : ((integer.natAbs : Int) : ℚ) = integer := by
        rw [Int.natAbs_of_nonneg positiveInteger.le]
      rw [Int.cast_natCast] at natural
      refine ⟨?_, by rw [natural, value], by omega⟩
      rw [Sign.apply]
      omega

theorem normalize_signed (sign : Sign) {mantissa : Nat} (positive : 0 < mantissa) (exponent : Int)
    (zeroSign : Sign) :
    UnpackedFloat.normalize Format.binary64 (sign.apply mantissa) exponent zeroSign =
      UnpackedFloat.round Format.binary64 sign mantissa exponent := by
  cases sign with
  | negative =>
      have compared : compare (-(mantissa : Int)) 0 = .lt := Int.compare_eq_lt.mpr (by omega)
      rw [UnpackedFloat.normalize, Sign.apply, compared]
      simp
  | positive =>
      have compared : compare (mantissa : Int) 0 = .gt := Int.compare_eq_gt.mpr (by omega)
      rw [UnpackedFloat.normalize, Sign.apply, compared]
      simp

theorem exists_signed (integer : Int) (nonzero : integer ≠ 0) :
    ∃ (sign : Sign) (natural : Nat), 0 < natural ∧ integer = sign.apply natural := by
  rcases lt_or_gt_of_ne nonzero with negative | positive
  · refine ⟨.negative, integer.natAbs, by omega, ?_⟩
    rw [Sign.apply]
    omega
  · refine ⟨.positive, integer.natAbs, by omega, ?_⟩
    rw [Sign.apply]
    omega

theorem is_integer_normalize {mantissa exponent integer : Int}
    (value : (mantissa : ℚ) * 2 ^ exponent = integer) (bounded : integer.natAbs ≤ 2 ^ 53)
    (zeroSign : Sign) :
    IsInteger (.ofModel (.pack
      (UnpackedFloat.normalize Format.binary64 mantissa exponent zeroSign))) integer := by
  by_cases zero : mantissa = 0
  · have integerZero : integer = 0 := by
      rw [zero, Int.cast_zero, zero_mul] at value
      exact_mod_cast value.symm
    rw [zero, integerZero]
    exact is_integer_zero zeroSign
  · obtain ⟨sign, magnitude, positive, rfl⟩ := exists_signed mantissa zero
    obtain ⟨integerEq, natural, naturalPositive⟩ := signed_parts positive value
    rw [normalize_signed sign positive, integerEq]
    exact is_integer_round natural naturalPositive bounded sign

/-- What a double that stands for a number is made of. -/
theorem parts_of_rational {value : Float} {number : ℚ} (stands : rational? value = some number) :
    (number = 0 ∧ ∃ sign, value.toModel.unpack = .zero sign) ∨
      ∃ sign mantissa exponent positive,
        value.toModel.unpack = .finite sign mantissa exponent positive ∧
        ((sign.apply mantissa : Int) : ℚ) * 2 ^ exponent = number := by
  rw [rational?] at stands
  cases unpacked : value.toModel.unpack with
  | notANumber =>
      rw [unpacked] at stands
      contradiction
  | infinity sign =>
      rw [unpacked] at stands
      contradiction
  | zero sign =>
      rw [unpacked] at stands
      exact .inl ⟨(Option.some.inj stands).symm, sign, rfl⟩
  | finite sign mantissa exponent positive =>
      rw [unpacked] at stands
      exact .inr ⟨sign, mantissa, exponent, positive, rfl, Option.some.inj stands⟩

theorem signed_injective {leftSign rightSign : Sign} {left right : Nat}
    {leftExponent rightExponent : Int} (leftPositive : 0 < left) (rightPositive : 0 < right)
    (same : ((leftSign.apply left : Int) : ℚ) * 2 ^ leftExponent =
      ((rightSign.apply right : Int) : ℚ) * 2 ^ rightExponent) :
    leftSign = rightSign ∧ (left : ℚ) * 2 ^ leftExponent = right * 2 ^ rightExponent := by
  have leftMagnitude : (0 : ℚ) < left * 2 ^ leftExponent :=
    mul_pos (Nat.cast_pos.mpr leftPositive) (zpow_pos two_pos _)
  have rightMagnitude : (0 : ℚ) < right * 2 ^ rightExponent :=
    mul_pos (Nat.cast_pos.mpr rightPositive) (zpow_pos two_pos _)
  cases leftSign <;> cases rightSign <;>
    simp only [Sign.apply, Int.cast_neg, Int.cast_natCast, neg_mul] at same
  · exact ⟨rfl, neg_inj.mp same⟩
  · linarith
  · linarith
  · exact ⟨rfl, same⟩

theorem signed_ne_zero (sign : Sign) {mantissa : Nat} (positive : 0 < mantissa) (exponent : Int) :
    ((sign.apply mantissa : Int) : ℚ) * 2 ^ exponent ≠ 0 := by
  apply mul_ne_zero _ (zpow_ne_zero _ two_ne_zero)
  rw [Int.cast_ne_zero]
  cases sign <;> simp only [Sign.apply] <;> omega

/-- Doubles that stand for the same number are equal. -/
theorem equal_of_rational {left right : Float} {number : ℚ}
    (leftStands : rational? left = some number) (rightStands : rational? right = some number) :
    (left == right) = true := by
  change (left.toModel.unpack.compare right.toModel.unpack == some .eq) = true
  rcases parts_of_rational leftStands with ⟨leftZero, leftSign, leftUnpacked⟩ |
    ⟨leftSign, leftUnits, leftPlace, leftPositive, leftUnpacked, leftValue⟩
  · rcases parts_of_rational rightStands with ⟨-, rightSign, rightUnpacked⟩ |
      ⟨rightSign, rightUnits, rightPlace, rightPositive, -, rightValue⟩
    · rw [leftUnpacked, rightUnpacked]
      rfl
    · rw [leftZero] at rightValue
      exact absurd rightValue (signed_ne_zero rightSign rightPositive rightPlace)
  · rcases parts_of_rational rightStands with ⟨rightZero, -⟩ |
      ⟨rightSign, rightUnits, rightPlace, rightPositive, rightUnpacked, rightValue⟩
    · rw [rightZero] at leftValue
      exact absurd leftValue (signed_ne_zero leftSign leftPositive leftPlace)
    · obtain ⟨sameSign, sameMagnitude⟩ :=
        signed_injective leftPositive rightPositive (leftValue.trans rightValue.symm)
      have leftExact := units_of_unpack leftUnpacked
      have rightExact := (units_of_unpack rightUnpacked).of_value
        (sameMagnitude.trans (to_rat_scaled _ _).symm)
      obtain ⟨sameUnits, samePlace⟩ := leftExact.unique rightExact
      subst sameSign sameUnits samePlace
      rw [leftUnpacked, rightUnpacked]
      cases leftSign <;> simp [UnpackedFloat.compare]

theorem aligned_value (sign : Sign) (mantissa : Nat) {exponent lower : Int}
    (below : lower ≤ exponent) :
    ((sign.apply (mantissa <<< (exponent - lower).toNat : Nat) : Int) : ℚ) * 2 ^ lower =
      ((sign.apply mantissa : Int) : ℚ) * 2 ^ exponent := by
  have split : (2 : ℚ) ^ exponent = 2 ^ (exponent - lower).toNat * 2 ^ lower := by
    rw [← zpow_natCast, ← zpow_add₀ two_ne_zero]
    congr 1
    omega
  rw [split, ← mul_assoc, Nat.shiftLeft_eq]
  cases sign <;> simp [Sign.apply]

/-- Sums of integers are exact up to 2 ^ 53. -/
theorem IsInteger.add {left right : Float} {leftInteger rightInteger : Int}
    (leftStands : IsInteger left leftInteger) (rightStands : IsInteger right rightInteger)
    (bounded : (leftInteger + rightInteger).natAbs ≤ 2 ^ 53) :
    IsInteger (left + right) (leftInteger + rightInteger) := by
  change IsInteger (.ofModel (.pack (UnpackedFloat.add Format.binary64 left.toModel.unpack
    right.toModel.unpack))) _
  rcases parts_of_rational leftStands with ⟨leftZero, leftSign, leftUnpacked⟩ |
    ⟨leftSign, leftMantissa, leftExponent, leftPositive, leftUnpacked, leftValue⟩
  · rw [Int.cast_eq_zero.mp leftZero, Int.zero_add, leftUnpacked]
    rcases parts_of_rational rightStands with ⟨rightZero, rightSign, rightUnpacked⟩ |
      ⟨rightSign, rightMantissa, rightExponent, rightPositive, rightUnpacked, -⟩
    · rw [Int.cast_eq_zero.mp rightZero, rightUnpacked, UnpackedFloat.add]
      split <;> exact is_integer_zero _
    · rw [rightUnpacked, UnpackedFloat.add, ← rightUnpacked, pack_unpacked]
      · exact rightStands
      all_goals nofun
  · rcases parts_of_rational rightStands with ⟨rightZero, rightSign, rightUnpacked⟩ |
      ⟨rightSign, rightMantissa, rightExponent, rightPositive, rightUnpacked, rightValue⟩
    · rw [Int.cast_eq_zero.mp rightZero, Int.add_zero, rightUnpacked, leftUnpacked,
        UnpackedFloat.add, ← leftUnpacked, pack_unpacked]
      · exact leftStands
      all_goals nofun
    · rw [leftUnpacked, rightUnpacked]
      apply is_integer_normalize _ bounded
      rw [Int.cast_add, add_mul, aligned_value leftSign leftMantissa (min_le_left _ _),
        aligned_value rightSign rightMantissa (min_le_right _ _), leftValue, rightValue,
        Int.cast_add]

theorem sign_mul_apply (left right : Sign) (leftMantissa rightMantissa : Nat) :
    (left * right).apply (leftMantissa * rightMantissa : Nat) =
      left.apply leftMantissa * right.apply rightMantissa := by
  rw [Nat.cast_mul]
  cases left with
  | negative =>
      cases right with
      | negative => exact (Int.neg_mul_neg _ _).symm
      | positive => exact (Int.neg_mul _ _).symm
  | positive =>
      cases right with
      | negative => exact (Int.mul_neg _ _).symm
      | positive => rfl

/-- An integer other than zero has as many units as a double can. -/
theorem full_of_integer {value : Float} {sign : Sign} {units : Nat} {place integer : Int}
    {positive : 0 < units} (unpacked : value.toModel.unpack = .finite sign units place positive)
    (stands : ((sign.apply units : Int) : ℚ) * 2 ^ place = integer) : 2 ^ 52 ≤ units := by
  obtain ⟨-, natural, naturalPositive⟩ := signed_parts positive stands
  apply (units_of_unpack unpacked).full_of_one_le
  rw [to_rat_scaled, natural]
  exact_mod_cast naturalPositive

/-- Products of integers are exact up to 2 ^ 53. -/
theorem IsInteger.mul {left right : Float} {leftInteger rightInteger : Int}
    (leftStands : IsInteger left leftInteger) (rightStands : IsInteger right rightInteger)
    (bounded : (leftInteger * rightInteger).natAbs ≤ 2 ^ 53) :
    IsInteger (left * right) (leftInteger * rightInteger) := by
  change IsInteger (.ofModel (.pack (UnpackedFloat.mul Format.binary64 left.toModel.unpack
    right.toModel.unpack))) _
  rcases parts_of_rational leftStands with ⟨leftZero, leftSign, leftUnpacked⟩ |
    ⟨leftSign, leftMantissa, leftExponent, leftPositive, leftUnpacked, leftValue⟩
  · rw [Int.cast_eq_zero.mp leftZero, Int.zero_mul, leftUnpacked]
    rcases parts_of_rational rightStands with ⟨-, rightSign, rightUnpacked⟩ |
      ⟨rightSign, rightMantissa, rightExponent, rightPositive, rightUnpacked, -⟩
    · rw [rightUnpacked]
      exact is_integer_zero _
    · rw [rightUnpacked]
      exact is_integer_zero _
  · rcases parts_of_rational rightStands with ⟨rightZero, rightSign, rightUnpacked⟩ |
      ⟨rightSign, rightMantissa, rightExponent, rightPositive, rightUnpacked, rightValue⟩
    · rw [Int.cast_eq_zero.mp rightZero, Int.mul_zero, leftUnpacked, rightUnpacked]
      exact is_integer_zero _
    · have product :
          (((leftSign * rightSign).apply (leftMantissa * rightMantissa : Nat) : Int) : ℚ) *
            2 ^ (leftExponent + rightExponent) = (leftInteger * rightInteger : Int) := by
        rw [Int.cast_mul, ← leftValue, ← rightValue, sign_mul_apply, zpow_add₀ two_ne_zero,
          Int.cast_mul]
        ring
      obtain ⟨integerEq, natural, naturalPositive⟩ :=
        signed_parts (Nat.mul_pos leftPositive rightPositive) product
      obtain ⟨units, place, exact, finite⟩ := exists_units_of_natural naturalPositive bounded
      have value : ((leftMantissa * rightMantissa : Nat) : ℚ) *
          2 ^ (leftExponent + rightExponent) = units * 2 ^ place := by
        rw [natural, ← exact.value]
        simp [Fraction.toRat]
      have leftFull := full_of_integer leftUnpacked leftValue
      have rightFull := full_of_integer rightUnpacked rightValue
      have many : units < leftMantissa * rightMantissa :=
        exact.short.trans_le (le_trans (by norm_num) (Nat.mul_le_mul leftFull rightFull))
      have shifted : leftExponent + rightExponent +
          (place - (leftExponent + rightExponent)).toNat = place := by
        have coarser := place_le_of_lt value many
        omega
      have rounded := exact.round_shifted (leftSign * rightSign) shifted
      rw [← eq_shifted value shifted] at rounded
      rw [leftUnpacked, rightUnpacked, integerEq]
      change IsInteger (.ofModel (.pack (roundWithAccuracy Format.binary64 (leftSign * rightSign)
        (leftMantissa * rightMantissa) (leftExponent + rightExponent) .exact))) _
      rw [rounded]
      exact is_integer_units exact finite (leftSign * rightSign)

end Binary64

end TinyLisp
