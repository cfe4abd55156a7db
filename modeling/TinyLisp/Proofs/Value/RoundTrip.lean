import TinyLisp.Proofs.Numeral.RoundTrip
import TinyLisp.Proofs.Value.Grammar
import TinyLisp.Proofs.Value.Reading

/-!
Values read back.

A value is read back from its written form exactly if it is readable. Its written form is cut into
the tokens that spell it, and these tokens are read as the value itself; in the other direction,
only a datum is ever read, and what equals a datum has its symbols, its texts and its shape.
-/

set_option autoImplicit false

namespace TinyLisp

namespace Value

mutual

/-- The tokens that spell the written form of a value. -/
def tokens : Value → List Token
  | .symbol name => [.atom name]
  | .text contents => [.atom (String.ofList (Text.quote contents.toList))]
  | .number value => [.atom (String.ofList (Numeral.chars value))]
  | .list elements => .openParen :: (tokensAll elements ++ [.closeParen])
  | .function params body =>
      .openParen :: .atom "lambda" :: .openParen ::
        (params.map .atom ++ .closeParen :: (tokensAll body ++ [.closeParen]))

def tokensAll : List Value → List Token
  | [] => []
  | first :: rest => tokens first ++ tokensAll rest

end

theorem chars_text (contents : String) :
    (Value.text contents).chars = Text.quote contents.toList :=
  rfl

theorem chars_number (number : Float) : (Value.number number).chars = Numeral.chars number :=
  rfl

theorem chars_list_cons (first : Value) (rest : List Value) :
    (Value.list (first :: rest)).chars =
      '(' :: (first.chars ++ (spacedChars rest ++ [')'])) :=
  rfl

theorem word_of_readable_name {name : String} (readable : ReadableName name) :
    Token.IsWord name.toList := by
  constructor
  · rw [ne_eq, String.toList_eq_nil_iff]
    exact readable.nonempty
  · intro char member
    rw [← Bool.not_eq_true, forbidden_iff]
    exact readable.plain char member

theorem word_of_numeral (number : Float) : Token.IsWord (Numeral.chars number) := by
  cases nan : number.isNaN with
  | true =>
      rw [Numeral.chars_of_nan nan]
      exact ⟨List.cons_ne_nil _ _, by simp [isForbiddenInSymbol, Token.isSeparator]⟩
  | false =>
      refine ⟨Numeral.chars_ne_nil number nan, fun char member => ?_⟩
      rw [← Bool.not_eq_true, forbidden_iff]
      intro forbidden
      have numeralChar := Numeral.mem_chars number nan char member
      unfold Numeral.IsUnsignedChar at numeralChar
      revert numeralChar
      simp only [List.mem_cons, List.not_mem_nil, or_false] at forbidden
      rcases forbidden with rfl | rfl | rfl | rfl | rfl | rfl <;> decide

/-- What follows an element in the written form of a list ends it. -/
theorem spaced_chars_ender (elements : List Value) (rest : List Char) :
    ∃ ender following, spacedChars elements ++ ')' :: rest = ender :: following ∧
      Token.IsEnder ender := by
  cases elements with
  | nil => exact ⟨')', rest, rfl, .inl rfl⟩
  | cons first others => exact ⟨' ', _, rfl, .inr List.mem_cons_self⟩

theorem scan_spaced_chars (elements : List Value) (rest : List Char)
    (each : ∀ element ∈ elements, ∀ ender following, Token.IsEnder ender →
      Token.scan .none (element.chars ++ ender :: following) =
        Token.emit element.tokens (Token.scan .none (ender :: following))) :
    Token.scan .none (spacedChars elements ++ ')' :: rest) =
      Token.emit (tokensAll elements ++ [.closeParen]) (Token.scan .none rest) := by
  induction elements with
  | nil => rfl
  | cons first others ih =>
      obtain ⟨firstScans, othersScan⟩ := List.forall_mem_cons.mp each
      obtain ⟨ender, following, shape, ends⟩ := spaced_chars_ender others rest
      have next := ih othersScan
      rw [shape] at next
      rw [spacedChars, tokensAll, List.cons_append, Token.scan_cons, List.append_assoc,
        List.append_assoc, Token.emit_append, shape]
      change Token.scan .none (first.chars ++ ender :: following) = _
      rw [firstScans ender following ends, next]

/-- The written form of a datum is cut into the tokens that spell it. -/
theorem scan_chars (value : Value) {depth : Nat} (datum : value.DatumAt depth)
    (ender : Char) (rest : List Char) (ends : Token.IsEnder ender) :
    Token.scan .none (value.chars ++ ender :: rest) =
      Token.emit value.tokens (Token.scan .none (ender :: rest)) := by
  induction value generalizing depth ender rest with
  | symbol name =>
      have readable : ReadableName name := (datum_at_node datum).2
      have scanned := Token.scan_word (word_of_readable_name readable) ends rest
      rwa [String.ofList_toList] at scanned
  | text contents =>
      have free : ParenFree contents.toList := (datum_at_node datum).2
      rw [chars_text, tokens]
      exact Token.scan_quote free (ender :: rest)
  | number number =>
      rw [chars_number, tokens]
      exact Token.scan_word (word_of_numeral number) ends rest
  | list elements ih =>
      have elementData := (datum_at_list_iff.mp datum).2
      have spaced := scan_spaced_chars elements (ender :: rest) fun element member =>
        ih element member (elementData element member)
      rw [tokens]
      change _ = Token.emit [.openParen] (Token.emit (tokensAll elements ++ [.closeParen]) _)
      rw [← spaced]
      -- A list writes its elements with spaces between them, and the scanner passes over the one
      -- that `spacedChars` has in front of the first.
      cases elements with
      | nil => rfl
      | cons first others =>
          simp only [chars_list_cons, spacedChars, List.cons_append, List.append_assoc,
            List.nil_append]
          rfl
  | function params body ih => exact absurd datum not_datum_at_function

theorem tokens_all_eq (elements : List Value) :
    tokensAll elements = (elements.map tokens).flatten := by
  induction elements with
  | nil => rfl
  | cons first rest ih => rw [tokensAll, ih, List.map_cons, List.flatten_cons]

/-- The tokens of the written form of a datum spell it. -/
theorem spells_tokens (value : Value) {depth : Nat} (datum : value.DatumAt depth) :
    Spells value.tokens value := by
  induction value generalizing depth with
  | symbol name => exact .atom (.symbol (datum_at_node datum).2)
  | text contents =>
      have unquoted : Text.unquote? (String.ofList (Text.quote contents.toList)).toList =
          some contents.toList := by
        rw [String.toList_ofList, Text.unquote?_quote]
      have spelled := AtomSpells.text unquoted
      rw [String.ofList_toList] at spelled
      exact .atom spelled
  | number number =>
      have numeral : Numeral.read? (String.ofList (Numeral.chars number)).toList =
          some number := by
        rw [String.toList_ofList, Numeral.read_chars]
      exact .atom (.number numeral)
  | list elements ih =>
      have elementData := (datum_at_list_iff.mp datum).2
      have each : List.Forall₂ Spells (elements.map tokens) elements := by
        rw [List.forall₂_map_left_iff, List.forall₂_same]
        intro element member
        exact ih element member (elementData element member)
      rw [tokens, tokens_all_eq]
      exact .list each
  | function params body ih => exact absurd datum not_datum_at_function

theorem spells_at_tokens {value : Value} (datum : value.Datum) :
    SpellsAt 0 value.tokens value := by
  refine ⟨spells_tokens value datum, ?_⟩
  intro below node inside
  exact (datum below node inside).1

theorem tokenize_render {value : Value} (datum : value.Datum) :
    Token.tokenize (value.render ++ "\n") = value.tokens := by
  have source : (value.render ++ "\n").toList = value.chars ++ ['\n'] := by
    rw [String.toList_append, render, String.toList_ofList]
    rfl
  have ended : Token.IsEnder '\n' := .inr (by decide)
  rw [Token.tokenize, source, scan_chars value datum '\n' [] ended]
  exact List.append_nil _

/-- The written form of a datum is read back as the datum itself, and nothing is left over. -/
theorem read_first_render {value : Value} (datum : value.Datum) :
    readFirst (Token.tokenize (value.render ++ "\n")) = .ok (value, []) := by
  have read := read_first_of_spells (spells_at_tokens datum) []
  rw [List.append_nil] at read
  rw [tokenize_render datum, read]

/-- The written form of a datum is a source text with this one expression. -/
theorem read_all_render {value : Value} (datum : value.Datum) :
    readAll (Token.tokenize (value.render ++ "\n")) = .ok [value] := by
  rw [tokenize_render datum, read_all_iff]
  exact ⟨[value.tokens], List.flatten_singleton.symm, .cons (spells_at_tokens datum) .nil⟩

theorem equal_all_self {values : List Value} (each : ∀ value ∈ values, equal value value = true) :
    equalAll values values = true := by
  induction values with
  | nil => rfl
  | cons value values ih =>
      obtain ⟨valueEqual, restEqual⟩ := List.forall_mem_cons.mp each
      rw [equalAll, valueEqual, ih restEqual]
      rfl

theorem exists_equal_of_mem {lefts rights : List Value} (same : equalAll lefts rights = true) :
    ∀ right ∈ rights, ∃ left ∈ lefts, equal left right = true := by
  induction rights generalizing lefts with
  | nil =>
      intro right member
      contradiction
  | cons first rights ih =>
      cases lefts with
      | nil => contradiction
      | cons left lefts =>
          rw [equalAll, Bool.and_eq_true] at same
          intro right member
          rcases List.mem_cons.mp member with rfl | member
          · exact ⟨left, List.mem_cons_self, same.1⟩
          · obtain ⟨other, otherMember, otherEqual⟩ := ih same.2 right member
            exact ⟨other, List.mem_cons_of_mem _ otherMember, otherEqual⟩

theorem equal_self {value : Value} {depth : Nat} (datum : value.DatumAt depth)
    (nanFree : value.NanFree) : equal value value = true := by
  induction value generalizing depth with
  | symbol name => simp [equal]
  | text contents => simp [equal]
  | number number =>
      rw [equal]
      exact (Binary64.equal_self_iff number).mpr (nan_free_number_iff.mp nanFree)
  | list elements ih =>
      have elementData := (datum_at_list_iff.mp datum).2
      have elementNanFree := nan_free_list_iff.mp nanFree
      rw [equal]
      apply equal_all_self
      intro element member
      exact ih element member (elementData element member) (elementNanFree element member)
  | function params body ih => exact absurd datum not_datum_at_function

/-- What equals a datum is one, and no NaN equals anything. -/
theorem readable_of_equal {left right : Value} {depth : Nat} (same : equal left right = true)
    (datum : left.DatumAt depth) : right.DatumAt depth ∧ right.NanFree := by
  induction right generalizing left depth with
  | symbol name =>
      cases left with
      | symbol other =>
          rw [equal, beq_iff_eq] at same
          subst same
          exact ⟨datum, by rintro depth number ⟨⟩⟩
      | _ => simp [equal] at same
  | text contents =>
      cases left with
      | text other =>
          rw [equal, beq_iff_eq] at same
          subst same
          exact ⟨datum, by rintro depth number ⟨⟩⟩
      | _ => simp [equal] at same
  | number number =>
      cases left with
      | number other =>
          rw [equal] at same
          exact ⟨datum_at_number (datum_at_node datum).1 number,
            nan_free_number_iff.mpr (Binary64.not_nan_of_equal same)⟩
      | _ => simp [equal] at same
  | list elements ih =>
      cases left with
      | list others =>
          rw [equal] at same
          obtain ⟨bound, otherData⟩ := datum_at_list_iff.mp datum
          have each : ∀ element ∈ elements,
              element.DatumAt (depth + 1) ∧ element.NanFree := by
            intro element member
            obtain ⟨other, otherMember, otherEqual⟩ := exists_equal_of_mem same element member
            exact ih element member otherEqual (otherData other otherMember)
          exact ⟨datum_at_list_iff.mpr ⟨bound, fun element member => (each element member).1⟩,
            nan_free_list_iff.mpr fun element member => (each element member).2⟩
      | _ => simp [equal] at same
  | function params body ih =>
      cases left with
      | function otherParams otherBody => exact absurd datum not_datum_at_function
      | _ => simp [equal] at same

theorem reads_back_of_readable {value : Value} (readable : value.Readable) :
    value.readsBack = true := by
  rw [readsBack, read_first_render readable.1]
  exact equal_self readable.1 readable.2

theorem readable_of_reads_back {value : Value} (back : value.readsBack = true) :
    value.Readable := by
  unfold readsBack at back
  split at back
  case h_1 again rest read => exact readable_of_equal back (datum_of_read_first read)
  case h_2 => contradiction

/-- A value is read back from its written form exactly if it is readable, and whatever is read from
any source text is so unless it has a NaN in it. -/
theorem reads_back_iff_readable (value : Value) :
    (value.readsBack = true ↔ value.Readable) ∧
      ∀ source rest, readFirst (Token.tokenize source) = .ok (value, rest) → value.NanFree →
        value.readsBack = true := by
  refine ⟨⟨readable_of_reads_back, reads_back_of_readable⟩, ?_⟩
  intro source rest read nanFree
  exact reads_back_of_readable ⟨datum_of_read_first read, nanFree⟩

theorem reads_back_list_with_text :
    readFirst (Token.tokenize "(a \"b \\\" c\") d\n") =
        .ok (.list [.symbol "a", .text "b \" c"], [.atom "d"]) ∧
      (Value.list [.symbol "a", .text "b \" c"]).NanFree ∧
      (Value.list [.symbol "a", .text "b \" c"]).readsBack = true := by
  have read : readFirst (Token.tokenize "(a \"b \\\" c\") d\n") =
      .ok (.list [.symbol "a", .text "b \" c"], [.atom "d"]) := by
    cbv
  have nanFree : (Value.list [.symbol "a", .text "b \" c"]).NanFree := by
    rw [nan_free_list_iff]
    intro element member depth number inside
    rcases List.mem_pair.mp member with same | same
    · subst same
      contradiction
    · subst same
      contradiction
  exact ⟨read, nanFree, (reads_back_iff_readable _).2 _ _ read nanFree⟩

end Value

end TinyLisp
