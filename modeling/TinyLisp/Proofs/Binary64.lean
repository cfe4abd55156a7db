import Mathlib

/-!
The bit patterns of doubles.

A double is determined by its bits, since no NaN but one is ever stored. The finite doubles are the
patterns below the one of infinity. The NaNs are those above it, and they are what does not equal
itself.
-/

set_option autoImplicit false

namespace TinyLisp

namespace Binary64

open Float.Model Float.Model.UnpackedFloat

theorem sign_of_bit (bit : BitVec 1) : (Sign.ofBitVec bit).toBitVec = bit := by
  revert bit
  decide

theorem parts_of_bits (bits : BitVec Format.binary64.numBits) :
    packComponents Format.binary64 (Sign.ofBitVec (unpackSign bits)) (unpackExponent bits)
      (unpackMantissa bits) = bits := by
  apply BitVec.eq_of_getLsbD_eq
  intro index bound
  simp only [packComponents, sign_of_bit, unpackSign, unpackExponent, unpackMantissa]
  simp
  grind

theorem implicit_bit (mantissa : BitVec 52) :
    (1#1 ++ mantissa).toNat = 2 ^ 52 + mantissa.toNat := by
  rw [BitVec.toNat_append, ← Nat.shiftLeft_add_eq_or_of_lt mantissa.isLt]
  rfl

theorem pack_subnormal (sign : Sign) (mantissa : BitVec 52) (nonzero : 0 < mantissa.toNat) :
    UnpackedFloat.pack Format.binary64 (.finite sign mantissa.toNat (-1074) nonzero) =
      packComponents Format.binary64 sign 0 mantissa := by
  have short : mantissa.toNat.log2 < 52 :=
    (Nat.log2_lt (Nat.ne_of_gt nonzero)).mpr mantissa.isLt
  have notNormal : ¬mantissa.toNat.log2 + 1 = Format.binary64.mantissaBits := by
    simp only [Format.mantissaBits]
    omega
  have field : ((-1074 : Int) + Format.binary64.exponentBias +
      Format.binary64.mantissaBitsWithoutImplicit).toNat = 1 := rfl
  simp only [UnpackedFloat.pack, field]
  rw [if_neg (by decide), if_neg notNormal, BitVec.ofNat_toNat, BitVec.setWidth_eq]
  rfl

theorem pack_normal (sign : Sign) (exponent : BitVec 11) (mantissa : BitVec 52)
    (below : exponent ≠ -1#_)
    (nonzero : 0 < (1#1 ++ mantissa).toNat) :
    UnpackedFloat.pack Format.binary64
        (.finite sign (1#1 ++ mantissa).toNat (exponent.toNat - 1075) nonzero) =
      packComponents Format.binary64 sign exponent mantissa := by
  have bound := mantissa.isLt
  have log : (1#1 ++ mantissa).toNat.log2 = 52 := by
    rw [implicit_bit, Nat.log2_eq_iff (by omega)]
    omega
  have notFull : exponent.toNat ≠ 2047 := by
    intro full
    exact below (BitVec.eq_of_toNat_eq full)
  have exponentBound : exponent.toNat < 2 ^ 11 := exponent.isLt
  have field : ((exponent.toNat : Int) - 1075 + Format.binary64.exponentBias +
      Format.binary64.mantissaBitsWithoutImplicit).toNat = exponent.toNat := by
    simp only [Format.exponentBias]
    omega
  have low : BitVec.ofNat 52 (1#1 ++ mantissa).toNat = mantissa := by
    apply BitVec.eq_of_toNat_eq
    rw [implicit_bit, BitVec.toNat_ofNat]
    omega
  simp only [UnpackedFloat.pack, field]
  rw [if_neg (show ¬2 ^ 11 ≤ exponent.toNat + 1 by omega), if_pos (by rw [log]; rfl), low,
    BitVec.ofNat_toNat, BitVec.setWidth_eq]

theorem pack_unpack (bits : BitVec Format.binary64.numBits) (valid : Format.binary64.Valid bits) :
    UnpackedFloat.pack Format.binary64 (UnpackedFloat.unpack Format.binary64 bits) = bits := by
  have parts := parts_of_bits bits
  rw [UnpackedFloat.unpack]
  by_cases full : unpackExponent bits = -1#_
  · by_cases zero : unpackMantissa bits = 0#_
    · rw [if_pos full, if_pos zero]
      rwa [full, zero] at parts
    · rw [if_pos full, if_neg zero]
      exact (valid.eq_packedNaN full zero).symm
  · rw [if_neg full]
    by_cases least : unpackExponent bits = 0#_
    · rw [if_pos least]
      by_cases zero : unpackMantissa bits = 0#_
      · rw [dif_pos zero]
        rwa [least, zero] at parts
      · rw [dif_neg zero]
        rw [least] at parts ⊢
        exact (pack_subnormal _ _ _).trans parts
    · rw [if_neg least]
      exact (pack_normal _ _ _ full _).trans parts

theorem of_bits_to_bits (value : Float) : Float.ofBits value.toBits = value := by
  obtain ⟨bits, valid⟩ := value
  have same := pack_unpack bits.toBitVec valid
  simp only [Float.ofBits, Float.toBits, Float.Model.ofBits, Float.Model.pack, same]

theorem exponent_field (bits : BitVec Format.binary64.numBits) :
    (unpackExponent bits).toNat = bits.toNat / 2 ^ 52 % 2 ^ 11 := by
  simp [unpackExponent, BitVec.extractLsb_toNat, Nat.shiftRight_eq_div_pow]

theorem mantissa_field (bits : BitVec Format.binary64.numBits) :
    (unpackMantissa bits).toNat = bits.toNat % 2 ^ 52 := by
  simp [unpackMantissa, BitVec.extractLsb_toNat]

theorem sign_field (bits : BitVec Format.binary64.numBits) :
    (unpackSign bits).toNat = bits.toNat / 2 ^ 63 % 2 := by
  simp [unpackSign, BitVec.extractLsb_toNat, Nat.shiftRight_eq_div_pow]

theorem unpacked_is_nan_iff (bits : BitVec Format.binary64.numBits) :
    (UnpackedFloat.unpack Format.binary64 bits).isNaN = true ↔
      unpackExponent bits = -1#_ ∧ unpackMantissa bits ≠ 0#_ := by
  rw [UnpackedFloat.unpack]
  by_cases full : unpackExponent bits = -1#_
  · by_cases zero : unpackMantissa bits = 0#_ <;> simp [full, zero, UnpackedFloat.isNaN]
  · rw [if_neg full]
    refine iff_of_false ?_ fun both => full both.1
    by_cases least : unpackExponent bits = 0#_
    · rw [if_pos least]
      split <;> exact Bool.false_ne_true
    · rw [if_neg least]
      exact Bool.false_ne_true

theorem is_nan_iff (value : Float) :
    value.isNaN = true ↔ 2047 * 2 ^ 52 < value.toBits.toNat % 2 ^ 63 := by
  have fields := unpacked_is_nan_iff value.toBits.toBitVec
  rw [← BitVec.toNat_inj, ← BitVec.toNat_ne_iff_ne, exponent_field, mantissa_field] at fields
  change value.isNaN = true ↔ value.toBits.toNat / 2 ^ 52 % 2 ^ 11 = 2047 ∧
    value.toBits.toNat % 2 ^ 52 ≠ 0 at fields
  rw [fields]
  omega

theorem unpacked_is_finite_iff (bits : BitVec Format.binary64.numBits) :
    (UnpackedFloat.unpack Format.binary64 bits).isFinite = true ↔ unpackExponent bits ≠ -1#_ := by
  rw [UnpackedFloat.unpack]
  by_cases full : unpackExponent bits = -1#_
  · rw [if_pos full]
    refine iff_of_false ?_ (not_not.mpr full)
    split <;> exact Bool.false_ne_true
  · rw [if_neg full]
    refine iff_of_true ?_ full
    by_cases least : unpackExponent bits = 0#_
    · rw [if_pos least]
      split <;> rfl
    · rw [if_neg least]
      rfl

theorem is_finite_iff (value : Float) :
    value.isFinite = true ↔ value.toBits.toNat % 2 ^ 63 < 2047 * 2 ^ 52 := by
  have field := unpacked_is_finite_iff value.toBits.toBitVec
  rw [← BitVec.toNat_ne_iff_ne, exponent_field] at field
  change value.isFinite = true ↔ value.toBits.toNat / 2 ^ 52 % 2 ^ 11 ≠ 2047 at field
  rw [field]
  omega

/-- The patterns up to infinity are stored as they are. -/
theorem to_bits_of_bits (bits : UInt64) (number : bits.toNat % 2 ^ 63 ≤ 2047 * 2 ^ 52) :
    (Float.ofBits bits).toBits = bits := by
  have valid : Format.binary64.Valid bits.toBitVec := by
    refine ⟨fun full nonzero => ?_⟩
    rw [← BitVec.toNat_inj, exponent_field] at full
    rw [← BitVec.toNat_ne_iff_ne, mantissa_field] at nonzero
    change bits.toNat / 2 ^ 52 % 2 ^ 11 = 2047 at full
    change bits.toNat % 2 ^ 52 ≠ 0 at nonzero
    omega
  exact congrArg UInt64.ofBitVec (pack_unpack bits.toBitVec valid)

/-- There is only one NaN. -/
theorem eq_of_is_nan {value : Float} (nan : value.isNaN = true) :
    value = Float.ofBits 0x7FF8000000000000 := by
  have fields := (unpacked_is_nan_iff value.toBits.toBitVec).mp nan
  obtain ⟨bits, valid⟩ := value
  have packed := valid.eq_packedNaN fields.1 fields.2
  rw [← of_bits_to_bits ⟨bits, valid⟩]
  apply congrArg Float.ofBits
  apply UInt64.eq_of_toBitVec_eq
  exact packed

theorem equal_self_iff (value : Float) : (value == value) = true ↔ value.isNaN = false := by
  change (value.toModel.unpack.compare value.toModel.unpack == some .eq) = true ↔
    value.toModel.unpack.isNaN = false
  cases value.toModel.unpack with
  | notANumber => simp [UnpackedFloat.compare, UnpackedFloat.isNaN]
  | infinity sign => cases sign <;> simp [UnpackedFloat.compare, UnpackedFloat.isNaN] <;> rfl
  | zero sign => simp [UnpackedFloat.compare, UnpackedFloat.isNaN]
  | finite sign mantissa exponent positive =>
      cases sign <;> simp [UnpackedFloat.compare, UnpackedFloat.isNaN]

theorem compare_nan (left : UnpackedFloat) : left.compare .notANumber = none := by
  cases left <;> rfl

theorem not_nan_of_equal {left right : Float} (same : (left == right) = true) :
    right.isNaN = false := by
  change (left.toModel.unpack.compare right.toModel.unpack == some .eq) = true at same
  change right.toModel.unpack.isNaN = false
  cases found : right.toModel.unpack with
  | notANumber =>
      rw [found, compare_nan] at same
      contradiction
  | infinity sign => rfl
  | zero sign => rfl
  | finite sign mantissa exponent positive => rfl

/-- The sign is the highest bit, so adding it once more changes nothing else. -/
theorem unpack_add_sign (bits : BitVec Format.binary64.numBits) :
    UnpackedFloat.unpack Format.binary64 (bits + 0x8000000000000000#64) =
      (UnpackedFloat.unpack Format.binary64 bits).neg := by
  have total : (bits + 0x8000000000000000#64).toNat = (bits.toNat + 2 ^ 63) % 2 ^ 64 :=
    BitVec.toNat_add _ _
  have bound : bits.toNat < 2 ^ 64 := bits.isLt
  have exponent : unpackExponent (bits + 0x8000000000000000#64) = unpackExponent bits := by
    apply BitVec.eq_of_toNat_eq
    rw [exponent_field, exponent_field, total]
    omega
  have mantissa : unpackMantissa (bits + 0x8000000000000000#64) = unpackMantissa bits := by
    apply BitVec.eq_of_toNat_eq
    rw [mantissa_field, mantissa_field, total]
    omega
  have sign : Sign.ofBitVec (unpackSign (bits + 0x8000000000000000#64)) =
      -Sign.ofBitVec (unpackSign bits) := by
    have flipped : unpackSign (bits + 0x8000000000000000#64) = ~~~unpackSign bits := by
      apply BitVec.eq_of_toNat_eq
      rw [BitVec.toNat_not, sign_field, sign_field, total]
      omega
    rw [flipped]
    rcases BitVec.eq_zero_or_eq_one (unpackSign bits) with bit | bit <;> rw [bit] <;> rfl
  simp only [UnpackedFloat.unpack, exponent, mantissa, sign]
  split_ifs <;> rfl

theorem neg_eq_of_bits (value : Float) :
    -value = Float.ofBits (value.toBits + 0x8000000000000000) := by
  have flipped := unpack_add_sign value.toBits.toBitVec
  simp only [Float.ofBits, Float.Model.ofBits]
  rw [UInt64.toBitVec_add]
  exact congrArg (fun unpacked => Float.ofModel (Float.Model.pack unpacked)) flipped.symm

end Binary64

end TinyLisp
