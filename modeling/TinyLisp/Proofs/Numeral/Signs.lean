import TinyLisp.Proofs.Numeral.Grammar

/-!
Signs before numerals.

A decimal literal is read with its sign at the first attempt, a word with a sign only at the second
one, which negates what stands behind it. The two agree: with or without a sign the same spellings
are read, and a minus gives the negated number whichever attempt reads it.
-/

set_option autoImplicit false

namespace TinyLisp

namespace Numeral

theorem of_decimal_negative (decimal : Decimal) :
    ofDecimal true decimal = -ofDecimal false decimal := by
  have bound : decimal.nearest ≤ 2047 * 2 ^ 52 := decimal.nearest_le_infinity
  have bits : (ofDecimal false decimal).toBits = UInt64.ofNat decimal.nearest := by
    rw [ofDecimal, if_neg Bool.false_ne_true, Nat.zero_add, Binary64.to_bits_of_bits]
    rw [UInt64.toNat_ofNat']
    omega
  rw [Binary64.neg_eq_of_bits, bits, ofDecimal, if_pos rfl, Nat.add_comm, UInt64.ofNat_add]
  rfl

theorem word_behind_sign {sign : Char} (isSign : IsSign sign) (spelling : List Char) :
    word? (sign :: spelling) = none := by
  rw [← Option.not_isSome_iff_eq_none, word_is_some_iff]
  intro isWord
  exact not_sign_of_split isWord.split_sign isSign

section

variable {spelling : List Char}

theorem read_of_unsigned (unsigned : splitSign spelling = (false, spelling)) :
    read? spelling = plain? spelling := by
  have unsignedAttempt : signed? spelling = none := by
    unfold signed?
    split
    case h_1 => exact absurd (.inr rfl) (not_sign_of_split unsigned)
    case h_2 => exact absurd (.inl rfl) (not_sign_of_split unsigned)
    case h_3 => rfl
  cases read : plain? spelling <;> simp [read?, read, unsignedAttempt]

theorem plain_of_no_literal {negative : Bool} {other : List Char}
    (split : splitSign spelling = (negative, other)) (refused : decimal? other = none) :
    plain? spelling = word? spelling := by
  simp only [plain?, split, refused]

/-- No word is refused for being finite. -/
theorem word_kept (spelling : List Char) :
    ((word? spelling).filter fun value => !value.isFinite) = word? spelling := by
  cases word : word? spelling with
  | none => rfl
  | some value => simp [word_not_finite word]

theorem read_behind_plus (unsigned : splitSign spelling = (false, spelling)) :
    read? ('+' :: spelling) = read? spelling := by
  have split : splitSign ('+' :: spelling) = (false, spelling) := rfl
  rw [read_of_unsigned unsigned]
  cases literal : decimal? spelling with
  | some decimal =>
      rw [plain_of_literal unsigned literal]
      simp only [read?, plain_of_literal split literal]
  | none =>
      have noWord := word_behind_sign (.inl rfl) spelling
      simp only [read?, plain_of_no_literal split literal, noWord, signed?,
        plain_of_no_literal unsigned literal, word_kept]

theorem read_behind_minus (unsigned : splitSign spelling = (false, spelling)) :
    read? ('-' :: spelling) = (read? spelling).map fun value => -value := by
  have split : splitSign ('-' :: spelling) = (true, spelling) := rfl
  rw [read_of_unsigned unsigned]
  cases literal : decimal? spelling with
  | some decimal =>
      rw [plain_of_literal unsigned literal, Option.map_some, ← of_decimal_negative]
      simp only [read?, plain_of_literal split literal]
  | none =>
      have noWord := word_behind_sign (.inr rfl) spelling
      simp only [read?, plain_of_no_literal split literal, noWord, signed?,
        plain_of_no_literal unsigned literal, word_kept]

end

/-- A sign before a spelling without one makes no difference to whether it is read. A plus makes
none to the number either, and a minus negates it. -/
theorem sign_before_numeral (spelling : List Char) (noPlus : spelling.head? ≠ some '+')
    (noMinus : spelling.head? ≠ some '-') :
    ((read? ('-' :: spelling)).isSome ↔ (read? spelling).isSome) ∧
    ((read? ('+' :: spelling)).isSome ↔ (read? spelling).isSome) ∧
    ∀ number, read? spelling = some number →
      read? ('+' :: spelling) = some number ∧ read? ('-' :: spelling) = some (-number) := by
  have unsigned := split_sign_of_head_ne noPlus noMinus
  rw [read_behind_plus unsigned, read_behind_minus unsigned, Option.isSome_map]
  refine ⟨Iff.rfl, Iff.rfl, ?_⟩
  intro number read
  rw [read]
  exact ⟨rfl, rfl⟩

theorem zero_overflow_and_words_negated :
    read? "-0".toList = some (Float.ofBits 0x8000000000000000) ∧
      read? "-1e999".toList = some (Float.ofBits 0xFFF0000000000000) ∧
      read? "+1e999".toList = some (Float.ofBits 0x7FF0000000000000) ∧
      read? "-Infinity".toList = some (Float.ofBits 0xFFF0000000000000) ∧
      read? "-nan".toList = read? "nan".toList ∧
      read? "-info".toList = none := by
  obtain ⟨-, -, zero⟩ := sign_before_numeral "0".toList (by decide) (by decide)
  obtain ⟨-, -, overflow⟩ := sign_before_numeral "1e999".toList (by decide) (by decide)
  obtain ⟨-, -, infinite⟩ := sign_before_numeral "Infinity".toList (by decide) (by decide)
  obtain ⟨-, -, nan⟩ := sign_before_numeral "nan".toList (by decide) (by decide)
  obtain ⟨refused, -, -⟩ := sign_before_numeral "info".toList (by decide) (by decide)
  refine ⟨(zero (Float.ofBits 0) rfl).2, (overflow (Float.ofBits 0x7FF0000000000000) rfl).2,
    (overflow _ rfl).1, (infinite (Float.ofBits 0x7FF0000000000000) rfl).2,
    (nan (Float.ofBits 0x7FF8000000000000) rfl).2, ?_⟩
  rw [← Option.not_isSome_iff_eq_none]
  exact mt refused.mp (by decide)

end Numeral

end TinyLisp
