import TinyLisp.Proofs.Decimal.Overflow
import TinyLisp.Proofs.Numeral.RoundTrip
import TinyLisp.Proofs.Value.Grammar

/-!
The grammar of numerals.

A numeral is a decimal literal, or a word for a double that is not finite, with at most one sign.
All of these are read as numbers. What follows a sign is read as if it stood alone and judged by
its value, so there is one kind of spelling more: a second sign before a literal that overflows.
-/

set_option autoImplicit false

namespace TinyLisp

namespace Numeral

def IsSign (char : Char) : Prop :=
  char = '+' ∨ char = '-'

/-- A spelling of some kind with at most one sign before it. -/
inductive Signed (Kind : List Char → Prop) : List Char → Prop
  | without {unsigned : List Char} (kind : Kind unsigned) : Signed Kind unsigned
  | behind {sign : Char} {unsigned : List Char} (isSign : IsSign sign) (kind : Kind unsigned) :
      Signed Kind (sign :: unsigned)

def IsDigits (digits : List Char) : Prop :=
  digits ≠ [] ∧ AllDigits digits

/-- Digits with a point behind or among them, or without one, or digits behind a point. -/
inductive IsSignificand : List Char → Prop
  | whole {digits : List Char} (isDigits : IsDigits digits) : IsSignificand digits
  | point {whole fraction : List Char} (isDigits : IsDigits whole) (more : AllDigits fraction) :
      IsSignificand (whole ++ '.' :: fraction)
  | fraction {digits : List Char} (isDigits : IsDigits digits) : IsSignificand ('.' :: digits)

inductive IsExponent : List Char → Prop
  | absent : IsExponent []
  | present {marker : Char} {digits : List Char} (marks : marker = 'e' ∨ marker = 'E')
      (signed : Signed IsDigits digits) : IsExponent (marker :: digits)

/-- An unsigned decimal literal. -/
def IsDecimal (spelling : List Char) : Prop :=
  ∃ significand exponent, spelling = significand ++ exponent ∧ IsSignificand significand ∧
    IsExponent exponent

/-- A word for a double that is not finite, in any letter case. -/
def IsWord (spelling : List Char) : Prop :=
  spelling.map Char.toLower ∈ ["nan".toList, "inf".toList, "infinity".toList]

def IsNumeral : List Char → Prop :=
  Signed fun unsigned => IsDecimal unsigned ∨ IsWord unsigned

/-- A decimal literal that is infinite as a double. -/
def Overflows (spelling : List Char) : Prop :=
  ∃ decimal, decimal? spelling = some decimal ∧ Magnitude.overflow ≤ decimal.toFraction.toRat

/-- A literal that overflows with two signs before it. -/
def OverflowsBehindTwoSigns (spelling : List Char) : Prop :=
  ∃ first second literal, spelling = first :: second :: literal ∧ IsSign first ∧ IsSign second ∧
    Overflows literal

theorem not_sign_of_digit {char : Char} (digit : char.isDigit = true) : ¬IsSign char := by
  intro sign
  rcases sign with rfl | rfl <;> contradiction

theorem split_sign_of_head {first : Char} {rest : List Char} (notSign : ¬IsSign first) :
    splitSign (first :: rest) = (false, first :: rest) := by
  apply split_sign_of_head_ne
  · intro plus
    exact notSign (.inl (Option.some.inj plus))
  · intro minus
    exact notSign (.inr (Option.some.inj minus))

/-- Where spellings of a kind do not start with a sign themselves, the sign is split off. -/
theorem signed_iff {Kind : List Char → Prop}
    (unsigned : ∀ spelling, Kind spelling → splitSign spelling = (false, spelling))
    (spelling : List Char) : Signed Kind spelling ↔ Kind (splitSign spelling).2 := by
  constructor
  · intro signed
    cases signed with
    | without kind => rwa [unsigned spelling kind]
    | behind isSign kind => rcases isSign with rfl | rfl <;> exact kind
  · fun_cases splitSign spelling with
    | case1 rest => exact .behind (.inr rfl)
    | case2 rest => exact .behind (.inl rfl)
    | case3 => exact .without

theorem IsDigits.head {digits : List Char} (isDigits : IsDigits digits) :
    ∃ first rest, digits = first :: rest ∧ first.isDigit = true := by
  obtain ⟨first, rest, rfl⟩ := List.exists_cons_of_ne_nil isDigits.1
  exact ⟨first, rest, rfl, isDigits.2 first List.mem_cons_self⟩

theorem IsDigits.split_sign {digits : List Char} (isDigits : IsDigits digits) :
    splitSign digits = (false, digits) := by
  obtain ⟨first, rest, rfl, digit⟩ := isDigits.head
  exact split_sign_of_head (not_sign_of_digit digit)

theorem exponent_is_some_iff (spelling : List Char) :
    (exponent? spelling).isSome = true ↔ IsExponent spelling := by
  cases spelling with
  | nil => exact iff_of_true rfl .absent
  | cons marker rest =>
      have digits := signed_iff (fun _ isDigits => IsDigits.split_sign isDigits) rest
      have read : (exponent? (marker :: rest)).isSome = true ↔
          (marker = 'e' ∨ marker = 'E') ∧ IsDigits (splitSign rest).2 := by
        simp only [exponent?, IsDigits, AllDigits, List.all_eq_true]
        split
        case isTrue parts => exact iff_of_true rfl parts
        case isFalse parts => exact iff_of_false Bool.false_ne_true parts
      rw [read, ← digits]
      constructor
      · intro parts
        exact .present parts.1 parts.2
      · intro isExponent
        cases isExponent with
        | present marks signed => exact ⟨marks, signed⟩

theorem IsExponent.head {exponent : List Char} (isExponent : IsExponent exponent) :
    ∀ char, exponent.head? = some char → char.isDigit = false ∧ char ≠ '.' := by
  intro char head
  cases isExponent with
  | absent => contradiction
  | present marks _ =>
      cases head
      rcases marks with rfl | rfl <;> decide

theorem split_fraction_of_head {rest : List Char}
    (noPoint : ∀ char, rest.head? = some char → char ≠ '.') : splitFraction rest = ([], rest) := by
  unfold splitFraction
  split
  case h_1 => exact absurd rfl (noPoint '.' rfl)
  case h_2 => rfl

theorem decimal_of_parts_iff {whole fraction afterWhole afterFraction : List Char}
    (digits : AllDigits whole) (stop : ∀ char, afterWhole.head? = some char → char.isDigit = false)
    (split : splitFraction afterWhole = (fraction, afterFraction)) :
    (decimal? (whole ++ afterWhole)).isSome = true ↔
      ¬(whole = [] ∧ fraction = []) ∧ IsExponent afterFraction := by
  simp only [decimal?, span_digits whole afterWhole digits stop, split]
  split_ifs with empty
  · exact iff_of_false Bool.false_ne_true fun parts => parts.1 empty
  · rw [Option.isSome_map, exponent_is_some_iff]
    exact (and_iff_right empty).symm

theorem exists_digits (spelling : List Char) :
    ∃ digits rest, spelling = digits ++ rest ∧ AllDigits digits ∧
      ∀ char, rest.head? = some char → char.isDigit = false := by
  refine ⟨spelling.takeWhile Char.isDigit, spelling.dropWhile Char.isDigit,
    List.takeWhile_append_dropWhile.symm, ?_, ?_⟩
  · intro char member
    exact List.mem_takeWhile_imp member
  · intro char head
    have stopped := List.head?_dropWhile_not Char.isDigit spelling
    rw [head] at stopped
    exact stopped

theorem decimal_is_some_iff (spelling : List Char) :
    (decimal? spelling).isSome = true ↔ IsDecimal spelling := by
  constructor
  · intro read
    obtain ⟨whole, afterWhole, rfl, digits, stop⟩ := exists_digits spelling
    by_cases point : ∃ rest, afterWhole = '.' :: rest
    · obtain ⟨rest, rfl⟩ := point
      obtain ⟨fraction, exponent, rfl, more, fractionStop⟩ := exists_digits rest
      have split : splitFraction ('.' :: (fraction ++ exponent)) = (fraction, exponent) :=
        span_digits fraction exponent more fractionStop
      obtain ⟨nonempty, isExponent⟩ := (decimal_of_parts_iff digits stop split).mp read
      by_cases empty : whole = []
      · have isDigits : IsDigits fraction := ⟨fun none => nonempty ⟨empty, none⟩, more⟩
        rw [empty]
        exact ⟨'.' :: fraction, exponent, rfl, .fraction isDigits, isExponent⟩
      · refine ⟨whole ++ '.' :: fraction, exponent, ?_, .point ⟨empty, digits⟩ more, isExponent⟩
        rw [List.append_assoc, List.cons_append]
    · have split : splitFraction afterWhole = ([], afterWhole) := by
        apply split_fraction_of_head
        intro char head same
        obtain ⟨rest, starts⟩ := List.head?_eq_some_iff.mp head
        exact point ⟨rest, by rw [starts, same]⟩
      obtain ⟨nonempty, isExponent⟩ := (decimal_of_parts_iff digits stop split).mp read
      have isDigits : IsDigits whole := ⟨fun empty => nonempty ⟨empty, rfl⟩, digits⟩
      exact ⟨whole, afterWhole, rfl, .whole isDigits, isExponent⟩
  · intro isDecimal
    obtain ⟨significand, exponent, rfl, isSignificand, isExponent⟩ := isDecimal
    have stop := fun char head => (isExponent.head char head).1
    have noPoint := fun char head => (isExponent.head char head).2
    cases isSignificand with
    | whole isDigits =>
        rw [decimal_of_parts_iff isDigits.2 stop (split_fraction_of_head noPoint)]
        exact ⟨fun empty => isDigits.1 empty.1, isExponent⟩
    | @point whole fraction isDigits more =>
        have split : splitFraction ('.' :: (fraction ++ exponent)) = (fraction, exponent) :=
          span_digits fraction exponent more stop
        rw [List.append_assoc, List.cons_append,
          decimal_of_parts_iff isDigits.2 (by intro char head; cases head; rfl) split]
        exact ⟨fun empty => isDigits.1 empty.1, isExponent⟩
    | @fraction digits isDigits =>
        have split : splitFraction ('.' :: (digits ++ exponent)) = (digits, exponent) :=
          span_digits digits exponent isDigits.2 stop
        have read := decimal_of_parts_iff (List.forall_mem_nil _)
          (by intro char head; cases head; rfl) split
        exact read.mpr ⟨fun empty => isDigits.1 empty.2, isExponent⟩

theorem IsDecimal.head {spelling : List Char} (isDecimal : IsDecimal spelling) :
    ∃ first rest, spelling = first :: rest ∧ (first.isDigit = true ∨ first = '.') := by
  obtain ⟨significand, exponent, rfl, isSignificand, -⟩ := isDecimal
  cases isSignificand with
  | whole isDigits =>
      obtain ⟨first, rest, rfl, digit⟩ := isDigits.head
      exact ⟨first, rest ++ exponent, rfl, .inl digit⟩
  | point isDigits _ =>
      obtain ⟨first, rest, rfl, digit⟩ := isDigits.head
      exact ⟨first, _, rfl, .inl digit⟩
  | fraction isDigits => exact ⟨'.', _, rfl, .inr rfl⟩

theorem IsDecimal.split_sign {spelling : List Char} (isDecimal : IsDecimal spelling) :
    splitSign spelling = (false, spelling) := by
  obtain ⟨first, rest, rfl, digit | rfl⟩ := isDecimal.head
  · exact split_sign_of_head (not_sign_of_digit digit)
  · rfl

theorem word_is_some_iff (spelling : List Char) :
    (word? spelling).isSome = true ↔ IsWord spelling := by
  simp only [word?, IsWord, List.mem_cons, List.not_mem_nil, or_false]
  split_ifs with nan infinite
  · exact iff_of_true rfl (.inl nan)
  · exact iff_of_true rfl (.inr infinite)
  · exact iff_of_false Bool.false_ne_true fun word => word.elim nan infinite

theorem IsWord.head {spelling : List Char} (isWord : IsWord spelling) :
    ∃ first rest, spelling = first :: rest ∧ first.isAlpha = true := by
  cases spelling with
  | nil => simp [IsWord] at isWord
  | cons first rest =>
      have lower : first.toLower = 'n' ∨ first.toLower = 'i' := by
        simp only [IsWord, List.mem_cons, List.map_cons, List.not_mem_nil, or_false] at isWord
        rcases isWord with same | same | same
        · exact .inl (List.cons.inj same).1
        · exact .inr (List.cons.inj same).1
        · exact .inr (List.cons.inj same).1
      refine ⟨first, rest, rfl, ?_⟩
      rw [← Char.isAlpha_toLower_eq_isAlpha]
      rcases lower with same | same <;> rw [same] <;> rfl

theorem not_start_of_alpha {char : Char} (alpha : char.isAlpha = true) :
    ¬IsSign char ∧ char.isDigit = false ∧ char ≠ '.' := by
  refine ⟨?_, ?_, ?_⟩
  · intro sign
    rcases sign with rfl | rfl <;> contradiction
  · simp [Char.isAlpha, Char.isUpper, Char.isLower, Char.isDigit, UInt32.le_iff_toNat_le] at alpha ⊢
    omega
  · intro point
    rw [point] at alpha
    contradiction

theorem IsWord.split_sign {spelling : List Char} (isWord : IsWord spelling) :
    splitSign spelling = (false, spelling) := by
  obtain ⟨first, rest, rfl, alpha⟩ := isWord.head
  exact split_sign_of_head (not_start_of_alpha alpha).1

theorem IsWord.decimal_eq_none {spelling : List Char} (isWord : IsWord spelling) :
    decimal? (splitSign spelling).2 = none := by
  rw [isWord.split_sign, ← Option.not_isSome_iff_eq_none, decimal_is_some_iff]
  intro isDecimal
  obtain ⟨first, rest, rfl, alpha⟩ := isWord.head
  obtain ⟨_, _, same, starts⟩ := isDecimal.head
  rw [← (List.cons.inj same).1, (not_start_of_alpha alpha).2.1] at starts
  exact starts.elim Bool.false_ne_true (not_start_of_alpha alpha).2.2

theorem word_not_finite {spelling : List Char} {value : Float}
    (read : word? spelling = some value) : value.isFinite = false := by
  simp only [word?] at read
  split_ifs at read
  · rw [← Option.some.inj read]
    decide +kernel
  · rw [← Option.some.inj read]
    decide +kernel

theorem plain_is_some_iff (spelling : List Char) :
    (plain? spelling).isSome = true ↔ Signed IsDecimal spelling ∨ IsWord spelling := by
  rw [signed_iff (fun _ isDecimal => isDecimal.split_sign), ← decimal_is_some_iff,
    ← word_is_some_iff]
  cases read : decimal? (splitSign spelling).2 with
  | some decimal => simp [plain?, read]
  | none => simp [plain?, read]

theorem Overflows.is_decimal {spelling : List Char} (overflows : Overflows spelling) :
    IsDecimal spelling := by
  obtain ⟨decimal, read, -⟩ := overflows
  rw [← decimal_is_some_iff, read]
  rfl

/-- What is not finite as it stands is a literal that overflows or a word. -/
theorem plain_not_finite_iff (spelling : List Char) :
    ((plain? spelling).filter fun value => !value.isFinite).isSome = true ↔
      Signed Overflows spelling ∨ IsWord spelling := by
  rw [signed_iff (fun _ overflows => overflows.is_decimal.split_sign)]
  cases read : decimal? (splitSign spelling).2 with
  | some decimal =>
      have notWord : ¬IsWord spelling := by
        intro isWord
        rw [isWord.decimal_eq_none] at read
        contradiction
      have overflows : Overflows (splitSign spelling).2 ↔
          Magnitude.overflow ≤ decimal.toFraction.toRat := by
        simp [Overflows, read]
      rw [overflows, ← not_finite_of_decimal_iff (splitSign spelling).1, or_iff_left notWord]
      simp [plain?, read, Option.isSome_filter]
  | none =>
      have notLiteral : ¬Overflows (splitSign spelling).2 := by
        simp [Overflows, read]
      rw [or_iff_right notLiteral, ← word_is_some_iff]
      cases word : word? spelling with
      | some value => simp [plain?, read, word, word_not_finite word]
      | none => simp [plain?, read, word]

theorem exists_sign_cons_iff {Kind : List Char → Prop} {first : Char} {rest : List Char}
    (isFirst : IsSign first) :
    (∃ sign unsigned, first :: rest = sign :: unsigned ∧ IsSign sign ∧ Kind unsigned) ↔
      Kind rest := by
  constructor
  · intro spelled
    obtain ⟨_, _, same, -, kind⟩ := spelled
    rwa [(List.cons.inj same).2]
  · intro kind
    exact ⟨first, rest, rfl, isFirst, kind⟩

theorem signed_is_some_iff (spelling : List Char) :
    (signed? spelling).isSome = true ↔ ∃ sign rest, spelling = sign :: rest ∧ IsSign sign ∧
      (Signed Overflows rest ∨ IsWord rest) := by
  fun_cases signed? spelling with
  | case1 rest => rw [exists_sign_cons_iff (.inr rfl), Option.isSome_map, plain_not_finite_iff]
  | case2 rest => rw [exists_sign_cons_iff (.inl rfl), plain_not_finite_iff]
  | case3 _ noMinus noPlus =>
      refine iff_of_false Bool.false_ne_true ?_
      intro spelled
      obtain ⟨sign, rest, same, isSign, -⟩ := spelled
      rcases isSign with rfl | rfl
      · exact noPlus rest same
      · exact noMinus rest same

/-- The numerals are read, and what overflows behind two signs. -/
theorem read_is_some_iff (spelling : List Char) :
    (read? spelling).isSome = true ↔ IsNumeral spelling ∨ OverflowsBehindTwoSigns spelling := by
  have attempts : (read? spelling).isSome = true ↔
      (plain? spelling).isSome = true ∨ (signed? spelling).isSome = true := by
    cases read : plain? spelling <;> simp [read?, read]
  rw [attempts, plain_is_some_iff, signed_is_some_iff]
  constructor
  · intro read
    rcases read with (decimal | word) | ⟨first, rest, rfl, isFirst, overflow | word⟩
    · cases decimal with
      | without isDecimal => exact .inl (.without (.inl isDecimal))
      | behind isSign isDecimal => exact .inl (.behind isSign (.inl isDecimal))
    · exact .inl (.without (.inr word))
    -- What overflows is a literal in any case, so one sign makes a numeral of it.
    · cases overflow with
      | without overflows => exact .inl (.behind isFirst (.inl overflows.is_decimal))
      | behind isSecond overflows => exact .inr ⟨first, _, _, rfl, isFirst, isSecond, overflows⟩
    · exact .inl (.behind isFirst (.inr word))
  · intro spelled
    rcases spelled with numeral | ⟨first, second, literal, rfl, isFirst, isSecond, overflows⟩
    · cases numeral with
      | without unsigned =>
          rcases unsigned with isDecimal | isWord
          · exact .inl (.inl (.without isDecimal))
          · exact .inl (.inr isWord)
      | behind isSign unsigned =>
          rcases unsigned with isDecimal | isWord
          · exact .inl (.inl (.behind isSign isDecimal))
          · exact .inr ⟨_, _, rfl, isSign, .inr isWord⟩
    · exact .inr ⟨first, _, rfl, isFirst, .inl (.behind isSecond overflows)⟩

theorem not_sign_of_split {first : Char} {rest : List Char}
    (unsigned : splitSign (first :: rest) = (false, first :: rest)) : ¬IsSign first := by
  intro sign
  have length := congrArg (fun split => split.2.length) unsigned
  rcases sign with rfl | rfl <;> simp [splitSign] at length

/-- No numeral starts with two signs. -/
theorem not_numeral_of_two_signs {first second : Char} {rest : List Char} (isFirst : IsSign first)
    (isSecond : IsSign second) : ¬IsNumeral (first :: second :: rest) := by
  intro numeral
  cases numeral with
  | without unsigned =>
      exact not_sign_of_split (unsigned.elim IsDecimal.split_sign IsWord.split_sign) isFirst
  | behind _ unsigned =>
      exact not_sign_of_split (unsigned.elim IsDecimal.split_sign IsWord.split_sign) isSecond

end Numeral

theorem Token.of_string_of_numeral {spelling : String} {number : Float}
    (read : Numeral.read? spelling.toList = some number) :
    Token.ofString spelling = .atom spelling := by
  unfold Token.ofString
  split_ifs with opens closes
  · rw [opens] at read
    contradiction
  · rw [closes] at read
    contradiction
  · rfl

/-- A token is read as a number exactly if it is a numeral, or if it is a literal that overflows
with two signs before it. -/
theorem numbers_are_numerals_or_overflow_behind_two_signs (spelling : String)
    (rest : List Token) :
    (∃ number others,
      Value.readFirst (Token.ofString spelling :: rest) = .ok (.number number, others)) ↔
      Numeral.IsNumeral spelling.toList ∨ Numeral.OverflowsBehindTwoSigns spelling.toList := by
  rw [← Numeral.read_is_some_iff, Option.isSome_iff_exists]
  constructor
  · intro read
    obtain ⟨number, others, read⟩ := read
    obtain ⟨front, starts, spelled, -⟩ := Value.read_first_iff.mp read
    cases spelled with
    | atom spelled =>
        have same := congrArg Token.spelling (List.cons.inj starts).1
        rw [Token.spelling_ofString] at same
        rw [same]
        cases spelled with
        | number numeral => exact ⟨number, numeral⟩
  · intro read
    obtain ⟨number, read⟩ := read
    have spelled := spells_at_atom (by decide : 0 < maxNesting) (.number read)
    rw [Token.of_string_of_numeral read]
    exact ⟨number, rest, Value.read_first_of_spells spelled rest⟩

theorem overflow_behind_two_signs_is_read :
    Value.readFirst [Token.ofString "-+1e999"] =
        .ok (.number (Float.ofBits 0xFFF0000000000000), []) ∧
      ¬Numeral.IsNumeral "-+1e999".toList := by
  have numeral : Numeral.read? "-+1e999".toList = some (Float.ofBits 0xFFF0000000000000) := rfl
  have spelled := spells_at_atom (by decide : 0 < maxNesting) (.number numeral)
  exact ⟨Value.read_first_of_spells spelled [],
    Numeral.not_numeral_of_two_signs (.inr rfl) (.inl rfl)⟩

end TinyLisp
