import Mathlib
import TinyLisp.Numeral.Printer
import TinyLisp.Numeral.Reader
import TinyLisp.Proofs.Binary64
import TinyLisp.Proofs.Decimal.Rounding

/-!
Numerals read back.

The text of a double is read as that very double, the sign of zero included. The text is the word
for NaN, or a sign and either the word for infinity or a decimal in positional notation, and a
decimal is read back up to zeros that stand for a positive exponent.
-/

set_option autoImplicit false

namespace TinyLisp

namespace Numeral

def AllDigits (spelling : List Char) : Prop :=
  ∀ char ∈ spelling, char.isDigit = true

theorem digits_value_replicate (digits : List Char) (zeros : Nat) :
    digitsValue (digits ++ List.replicate zeros '0') = digitsValue digits * 10 ^ zeros := by
  induction zeros with
  | zero => simp
  | succ zeros ih =>
      rw [List.replicate_succ', ← List.append_assoc, digitsValue, List.foldl_append]
      change 10 * digitsValue (digits ++ List.replicate zeros '0') + 0 = _
      rw [ih, Nat.pow_succ]
      ring

theorem digits_value_to_digits (number : Nat) : digitsValue (Nat.toDigits 10 number) = number :=
  Nat.ofDigitChars_ten_toDigits

theorem digits_value_leading_zeros (zeros : Nat) (digits : List Char) :
    digitsValue (List.replicate zeros '0' ++ digits) = digitsValue digits := by
  have nothing := digits_value_replicate [] zeros
  rw [List.nil_append] at nothing
  have empty : digitsValue (List.replicate zeros '0') = 0 := by
    rw [nothing]
    exact Nat.zero_mul _
  rw [digitsValue, List.foldl_append]
  change List.foldl _ (digitsValue (List.replicate zeros '0')) digits = digitsValue digits
  rw [empty]
  rfl

theorem all_digits_to_digits (number : Nat) : AllDigits (Nat.toDigits 10 number) :=
  fun _ member => Nat.isDigit_of_mem_toDigits (by norm_num) (by norm_num) member

theorem span_digits (digits rest : List Char) (all : AllDigits digits)
    (stop : ∀ char, rest.head? = some char → char.isDigit = false) :
    (digits ++ rest).span Char.isDigit = (digits, rest) := by
  have stopped : rest.takeWhile Char.isDigit = [] ∧ rest.dropWhile Char.isDigit = rest := by
    cases rest with
    | nil => exact ⟨rfl, rfl⟩
    | cons char rest => simp [stop char rfl]
  rw [List.span_eq_takeWhile_dropWhile, List.takeWhile_append_of_pos all,
    List.dropWhile_append_of_pos all, stopped.1, stopped.2, List.append_nil]

theorem decimal_of_whole (whole : List Char) (all : AllDigits whole) (nonempty : whole ≠ []) :
    decimal? whole = some ⟨digitsValue whole, 0⟩ := by
  have span := span_digits whole [] all (by intro char head; cases head)
  rw [List.append_nil] at span
  simp only [decimal?, span, splitFraction]
  rw [if_neg fun both => nonempty both.1, List.append_nil]
  rfl

theorem decimal_of_point (whole fraction : List Char) (wholeDigits : AllDigits whole)
    (fractionDigits : AllDigits fraction) (nonempty : whole ≠ []) :
    decimal? (whole ++ '.' :: fraction) =
      some ⟨digitsValue (whole ++ fraction), -(fraction.length : Int)⟩ := by
  have wholeSpan := span_digits whole ('.' :: fraction) wholeDigits
    (by intro char head; cases head; rfl)
  have fractionSpan := span_digits fraction [] fractionDigits (by intro char head; cases head)
  rw [List.append_nil] at fractionSpan
  simp only [decimal?, wholeSpan, splitFraction, fractionSpan]
  rw [if_neg fun both => nonempty both.1, exponent?, Option.map_some, Int.zero_sub]

theorem all_digits_append {front back : List Char} (frontDigits : AllDigits front)
    (backDigits : AllDigits back) : AllDigits (front ++ back) :=
  List.forall_mem_append.mpr ⟨frontDigits, backDigits⟩

theorem all_digits_zeros (zeros : Nat) : AllDigits (List.replicate zeros '0') := by
  intro char member
  rw [List.eq_of_mem_replicate member]
  rfl

theorem whole_part_digits {digits : List Char} (places : Nat) (all : AllDigits digits) :
    AllDigits (Decimal.wholePart digits places) ∧ Decimal.wholePart digits places ≠ [] := by
  unfold Decimal.wholePart
  split
  case isTrue inside =>
    constructor
    · intro char member
      exact all char (List.mem_of_mem_take member)
    · intro empty
      have := congrArg List.length empty
      rw [List.length_take, List.length_nil] at this
      omega
  case isFalse =>
    exact ⟨all_digits_zeros 1, List.cons_ne_nil _ _⟩

theorem fraction_part_digits {digits : List Char} (places : Nat) (all : AllDigits digits) :
    AllDigits (Decimal.fractionPart digits places) := by
  apply all_digits_append (all_digits_zeros _)
  intro char member
  exact all char (List.mem_of_mem_drop member)

theorem fraction_part_length (digits : List Char) (places : Nat) :
    (Decimal.fractionPart digits places).length = places := by
  rw [Decimal.fractionPart, List.length_append, List.length_replicate, List.length_drop]
  omega

theorem digits_value_parts (digits : List Char) (places : Nat) :
    digitsValue (Decimal.wholePart digits places ++ Decimal.fractionPart digits places) =
      digitsValue digits := by
  unfold Decimal.wholePart Decimal.fractionPart
  split
  case isTrue inside =>
    rw [show places - digits.length = 0 by omega, List.replicate_zero, List.nil_append,
      List.take_append_drop]
  case isFalse outside =>
    rw [show digits.length - places = 0 by omega, List.drop_zero, ← List.append_assoc,
      ← List.replicate_one, List.replicate_append_replicate]
    exact digits_value_leading_zeros _ digits

/-- A decimal in positional notation, read again: without a fraction its exponent is spelled out as
zeros. -/
theorem decimal_of_positional (decimal : Decimal) :
    decimal? decimal.positional = some
      (if decimal.exponent < 0 then decimal
        else ⟨decimal.digits * 10 ^ decimal.exponent.toNat, 0⟩) := by
  have digits := all_digits_to_digits decimal.digits
  unfold Decimal.positional
  extract_lets spelled places
  by_cases fraction : decimal.exponent < 0
  · have some_places : places ≠ 0 := by omega
    have exponent : decimal.exponent = -(places : Int) := by omega
    obtain ⟨wholeDigits, nonempty⟩ := whole_part_digits places digits
    rw [if_pos fraction, if_neg some_places,
      decimal_of_point _ _ wholeDigits (fraction_part_digits places digits) nonempty,
      digits_value_parts, digits_value_to_digits, fraction_part_length, ← exponent]
  · have no_places : places = 0 := by omega
    rw [if_neg fraction, if_pos no_places,
      decimal_of_whole _ (all_digits_append digits (all_digits_zeros _))
        (List.append_ne_nil_of_left_ne_nil Nat.toDigits_ne_nil _),
      digits_value_replicate, digits_value_to_digits]

theorem nearest_spelled_out (decimal : Decimal) (whole : ¬decimal.exponent < 0)
    (finite : decimal.nearest < Magnitude.infinity) :
    Decimal.nearest ⟨decimal.digits * 10 ^ decimal.exponent.toNat, 0⟩ = decimal.nearest := by
  unfold Decimal.nearest at finite ⊢
  by_cases zero : decimal.digits = 0
  · simp only [zero, Nat.zero_mul, if_true]
  · have nonzero : decimal.digits * 10 ^ decimal.exponent.toNat ≠ 0 :=
      Nat.mul_ne_zero zero (Nat.ne_of_gt (Nat.pow_pos (by norm_num)))
    have small : ¬310 < decimal.exponent := by
      intro large
      rw [if_neg zero, if_pos large] at finite
      exact Nat.lt_irrefl _ finite
    have scaled : Decimal.toFraction ⟨decimal.digits * 10 ^ decimal.exponent.toNat, 0⟩ =
        decimal.toFraction := by
      simp [Decimal.toFraction, Fraction.scale, show (-decimal.exponent).toNat = 0 by omega]
    simp only [scaled]
    rw [if_neg nonzero, if_neg zero, if_neg small, if_neg (by omega), if_neg (by omega),
      if_neg (by omega)]

theorem decimal_of_magnitude (magnitude : Nat) (finite : magnitude < Magnitude.infinity) :
    ∃ decimal, decimal? (ofMagnitude magnitude) = some decimal ∧ decimal.nearest = magnitude := by
  unfold ofMagnitude
  by_cases zero : magnitude = 0
  · rw [if_pos zero, zero]
    exact ⟨⟨0, 0⟩, decimal_of_whole ['0'] (all_digits_zeros 1) (List.cons_ne_nil _ _), rfl⟩
  · rw [if_neg zero, if_neg (Nat.ne_of_lt finite), decimal_of_positional]
    have nearest := Magnitude.nearest_shortest magnitude (Nat.pos_of_ne_zero zero) finite
    refine ⟨_, rfl, ?_⟩
    split
    · exact nearest
    case isFalse whole =>
      rw [nearest_spelled_out _ whole (by rwa [nearest]), nearest]

def IsUnsignedChar (char : Char) : Prop :=
  char.isDigit = true ∨ char ∈ ['.', 'i', 'n', 'f']

theorem positional_chars (decimal : Decimal) : ∀ char ∈ decimal.positional, IsUnsignedChar char := by
  have digits := all_digits_to_digits decimal.digits
  intro char member
  unfold Decimal.positional at member
  extract_lets spelled places at member
  split at member
  · exact .inl (all_digits_append digits (all_digits_zeros _) char member)
  · rcases List.mem_append.mp member with member | member
    · exact .inl ((whole_part_digits places digits).1 char member)
    · rcases List.mem_cons.mp member with rfl | member
      · exact .inr List.mem_cons_self
      · exact .inl (fraction_part_digits places digits char member)

theorem of_magnitude_chars (magnitude : Nat) :
    ∀ char ∈ ofMagnitude magnitude, IsUnsignedChar char := by
  intro char member
  unfold ofMagnitude at member
  split at member
  · exact .inl (all_digits_zeros 1 char member)
  · split at member
    · exact .inr (List.mem_cons_of_mem _ member)
    · exact positional_chars _ char member

theorem positional_ne_nil (decimal : Decimal) : decimal.positional ≠ [] := by
  unfold Decimal.positional
  extract_lets spelled places
  split
  · exact List.append_ne_nil_of_left_ne_nil Nat.toDigits_ne_nil _
  · exact List.append_ne_nil_of_right_ne_nil _ (List.cons_ne_nil _ _)

theorem of_magnitude_ne_nil (magnitude : Nat) : ofMagnitude magnitude ≠ [] := by
  unfold ofMagnitude
  split
  · exact List.cons_ne_nil _ _
  · split
    · exact List.cons_ne_nil _ _
    · exact positional_ne_nil _

theorem split_sign_of_head_ne {spelling : List Char} (noPlus : spelling.head? ≠ some '+')
    (noMinus : spelling.head? ≠ some '-') : splitSign spelling = (false, spelling) := by
  fun_cases splitSign spelling with
  | case1 => exact absurd rfl noMinus
  | case2 => exact absurd rfl noPlus
  | case3 => rfl

theorem split_sign_unsigned (spelling : List Char)
    (unsigned : ∀ char ∈ spelling, IsUnsignedChar char) : splitSign spelling = (false, spelling) := by
  have noHead (sign : Char) (notUnsigned : ¬IsUnsignedChar sign) :
      spelling.head? ≠ some sign := by
    intro head
    exact notUnsigned (unsigned sign (List.mem_of_head? head))
  apply split_sign_of_head_ne
  · apply noHead
    unfold IsUnsignedChar
    decide
  · apply noHead
    unfold IsUnsignedChar
    decide

theorem plain_of_literal {spelling literal : List Char} {negative : Bool} {decimal : Decimal}
    (split : splitSign spelling = (negative, literal)) (read : decimal? literal = some decimal) :
    plain? spelling = some (ofDecimal negative decimal) := by
  simp only [plain?, split, read]

/-- What stands in front of the magnitude of a double. -/
def signOf (negative : Bool) : List Char :=
  if negative then ['-'] else []

theorem plain_of_signed_decimal (negative : Bool) (unsigned : List Char) (decimal : Decimal)
    (chars : ∀ char ∈ unsigned, IsUnsignedChar char) (spelled : decimal? unsigned = some decimal) :
    plain? (signOf negative ++ unsigned) = some (ofDecimal negative decimal) := by
  have split : splitSign (signOf negative ++ unsigned) = (negative, unsigned) := by
    cases negative with
    | true => rfl
    | false => exact split_sign_unsigned unsigned chars
  exact plain_of_literal split spelled

theorem read_signed_infinity (negative : Bool) :
    read? (signOf negative ++ ['i', 'n', 'f']) =
      some (Float.ofBits (UInt64.ofNat ((if negative then 2 ^ 63 else 0) + Magnitude.infinity))) := by
  cases negative <;> decide +kernel

/-- The sign and the magnitude of a double that is a number. -/
theorem chars_of_number (value : Float) (number : value.isNaN = false) :
    ∃ negative magnitude, magnitude ≤ Magnitude.infinity ∧
      value = Float.ofBits (UInt64.ofNat ((if negative then 2 ^ 63 else 0) + magnitude)) ∧
      chars value = signOf negative ++ ofMagnitude magnitude := by
  have bound : value.toBits.toNat < 2 ^ 64 := value.toBits.toNat_lt
  have notNan : ¬Magnitude.infinity < value.toBits.toNat % 2 ^ 63 := by
    intro above
    rw [(Binary64.is_nan_iff value).mpr above] at number
    contradiction
  refine ⟨decide (2 ^ 63 ≤ value.toBits.toNat), value.toBits.toNat % 2 ^ 63,
    Nat.le_of_not_lt notNan, ?_, ?_⟩
  · have whole : (if decide (2 ^ 63 ≤ value.toBits.toNat) = true then 2 ^ 63 else 0) +
        value.toBits.toNat % 2 ^ 63 = value.toBits.toNat := by
      simp only [decide_eq_true_eq]
      split <;> omega
    rw [whole, UInt64.ofNat_toNat, Binary64.of_bits_to_bits]
  · simp only [chars, Nat.pow_eq]
    rw [if_neg notNan]
    by_cases positive : value.toBits.toNat < 2 ^ 63
    · rw [if_pos positive, signOf, decide_eq_false (by omega)]
      rfl
    · rw [if_neg positive, signOf, decide_eq_true (by omega)]
      rfl

theorem read_chars_of_number (value : Float) (number : value.isNaN = false) :
    read? (chars value) = some value := by
  obtain ⟨negative, magnitude, bound, bits, spelled⟩ := chars_of_number value number
  rw [spelled]
  by_cases infinite : magnitude = Magnitude.infinity
  · rw [infinite] at bits ⊢
    rw [bits]
    exact read_signed_infinity negative
  · obtain ⟨decimal, digits, nearest⟩ :=
      decimal_of_magnitude magnitude (Nat.lt_of_le_of_ne bound infinite)
    have plain := plain_of_signed_decimal negative _ decimal (of_magnitude_chars magnitude) digits
    rw [read?, plain, ofDecimal, nearest, Nat.pow_eq, ← bits]

theorem chars_of_nan {value : Float} (nan : value.isNaN = true) :
    chars value = ['N', 'a', 'N'] := by
  have above : Magnitude.infinity < value.toBits.toNat % 2 ^ 63 :=
    (Binary64.is_nan_iff value).mp nan
  simp only [chars, Nat.pow_eq]
  rw [if_pos above]

/-- Every double is what its text is read as. -/
theorem read_chars (value : Float) : read? (chars value) = some value := by
  cases nan : value.isNaN with
  | false => exact read_chars_of_number value nan
  | true =>
      rw [chars_of_nan nan, Binary64.eq_of_is_nan nan]
      decide +kernel

theorem chars_ne_nil (value : Float) (number : value.isNaN = false) : chars value ≠ [] := by
  obtain ⟨negative, magnitude, -, -, spelled⟩ := chars_of_number value number
  rw [spelled]
  exact List.append_ne_nil_of_right_ne_nil _ (of_magnitude_ne_nil magnitude)

theorem mem_chars (value : Float) (number : value.isNaN = false) :
    ∀ char ∈ chars value, char = '-' ∨ IsUnsignedChar char := by
  obtain ⟨negative, magnitude, -, -, spelled⟩ := chars_of_number value number
  intro char member
  rw [spelled] at member
  rcases List.mem_append.mp member with sign | member
  · cases negative with
    | true => exact .inl (List.mem_singleton.mp sign)
    | false => contradiction
  · exact .inr (of_magnitude_chars magnitude char member)

end Numeral

end TinyLisp
