import TinyLisp.Proofs.Text.Literals
import TinyLisp.Value.Reader

/-!
Reading and writing text.

A backslash between the quotes starts an escape if it is not itself escaped. What a text is written
as is always read as that text. The other way round, a spelling is what its text is written as just
where every escape in it is needed: reading keeps the backslash of any other escape, and writing
doubles it.
-/

set_option autoImplicit false

namespace TinyLisp

namespace Text

/-- Whether a backslash behind an opening quote starts an escape of a character. -/
def EscapedIn (rest : List Char) (char : Char) : Prop :=
  ∃ front back, rest = front ++ '\\' :: char :: back ∧ ¬EscapesNext front

/-- Whether a backslash in a quoted text starts an escape of a character. -/
def Escapes (spelling : List Char) (char : Char) : Prop :=
  ∃ rest, spelling = '"' :: rest ∧ EscapedIn rest char

theorem not_escaped_in_quote (char : Char) : ¬EscapedIn ['"'] char := by
  intro escaped
  obtain ⟨front, back, split, -⟩ := escaped
  have length := congrArg List.length split
  simp only [List.length_cons, List.length_append, List.length_nil] at length
  omega

/-- A backslash takes the character behind it along, and what follows starts anew. -/
theorem escaped_in_pair_iff (first : Char) (rest : List Char) (char : Char) :
    EscapedIn ('\\' :: first :: rest) char ↔ char = first ∨ EscapedIn rest char := by
  have pair := escapes_next_append_iff (is_contents_pair first).unescaped
  constructor
  · intro escaped
    obtain ⟨front, back, split, unescaped⟩ := escaped
    rcases front with _ | ⟨backslash, _ | ⟨second, front⟩⟩
    · simp only [List.nil_append, List.cons.injEq, true_and] at split
      exact .inl split.1.symm
    · -- The second backslash of a pair starts nothing.
      simp only [List.cons_append, List.nil_append, List.cons.injEq] at split
      rw [← split.1] at unescaped
      exact absurd ((escapes_next_concat_iff [] '\\').mpr ⟨rfl, not_escapes_next_nil⟩) unescaped
    · simp only [List.cons_append, List.cons.injEq] at split
      obtain ⟨rfl, rfl, rfl⟩ := split
      exact .inr ⟨front, back, rfl, mt (pair front).mpr unescaped⟩
  · intro escaped
    rcases escaped with rfl | ⟨front, back, rfl, unescaped⟩
    · exact ⟨[], rest, rfl, not_escapes_next_nil⟩
    · exact ⟨'\\' :: first :: front, back, rfl, mt (pair front).mp unescaped⟩

theorem escaped_in_ordinary_iff {first : Char} (notQuote : first ≠ '"') (ordinary : first ≠ '\\')
    (rest : List Char) (char : Char) : EscapedIn (first :: rest) char ↔ EscapedIn rest char := by
  have single := escapes_next_append_iff (is_contents_singleton notQuote ordinary).unescaped
  constructor
  · intro escaped
    obtain ⟨front, back, split, unescaped⟩ := escaped
    cases front with
    | nil => exact absurd (List.cons.inj split).1 ordinary
    | cons _ front =>
        rw [List.cons_append] at split
        obtain ⟨rfl, rfl⟩ := List.cons.inj split
        exact ⟨front, back, rfl, mt (single front).mpr unescaped⟩
  · intro escaped
    obtain ⟨front, back, rfl, unescaped⟩ := escaped
    exact ⟨first :: front, back, rfl, mt (single front).mp unescaped⟩

/-- What was read is written back as it stood if nothing was escaped without need. -/
theorem escape_of_unescape_iff {rest contents : List Char}
    (read : unescape? rest = some contents) :
    escape contents ++ ['"'] = rest ↔
      ∀ char, EscapedIn rest char → char = '"' ∨ char = '\\' := by
  fun_induction unescape? rest generalizing contents with
  | case1 => contradiction
  | case2 =>
      rw [← Option.some.inj read]
      exact iff_of_true rfl fun char escaped => absurd escaped (not_escaped_in_quote char)
  | case3 => contradiction
  | case4 => contradiction
  | case5 char rest ih =>
      obtain ⟨inner, readInner, rfl⟩ := Option.map_eq_some_iff.mp read
      simp only [escaped_in_pair_iff, forall_eq_or_imp, ← ih readInner]
      by_cases needed : char = '"' ∨ char = '\\'
      · simp [escape, needed]
      · have notBackslash : '\\' ≠ char := fun same => needed (.inr same.symm)
        simp [escape, needed, notBackslash]
  | case6 char rest notQuote notLone notPair ih =>
      have ordinary := not_backslash_of_no_pair notLone notPair
      have special : ¬(char = '"' ∨ char = '\\') := fun either => either.elim notQuote ordinary
      obtain ⟨inner, readInner, rfl⟩ := Option.map_eq_some_iff.mp read
      simp only [escaped_in_ordinary_iff notQuote ordinary, ← ih readInner]
      simp [escape, special]

theorem quote_of_unquote_iff {spelling contents : List Char}
    (read : unquote? spelling = some contents) :
    quote contents = spelling ↔ ∀ char, Escapes spelling char → char = '"' ∨ char = '\\' := by
  unfold unquote? at read
  split at read
  case h_1 rest =>
    have within (char : Char) : Escapes ('"' :: rest) char ↔ EscapedIn rest char := by
      simp [Escapes]
    simp only [within, ← escape_of_unescape_iff read, quote, List.cons.injEq, true_and]
  case h_2 => contradiction

end Text

theorem Value.to_list_render_text (contents : String) :
    (Value.text contents).render.toList = Text.quote contents.toList :=
  String.toList_ofList

theorem unquote_of_read_text {spelling contents : String}
    (read : readText spelling = .ok (.text contents)) :
    Text.unquote? spelling.toList = some contents.toList := by
  unfold readText at read
  split at read
  case h_1 chars quoted =>
    cases read
    rw [quoted, String.toList_ofList]
  case h_2 => contradiction

theorem read_text_of_unquote {spelling : String} {contents : List Char}
    (quoted : Text.unquote? spelling.toList = some contents) :
    readText spelling = .ok (.text (String.ofList contents)) := by
  simp only [readText, quoted]

theorem read_text_of_not_literal {spelling : String}
    (notLiteral : ¬Text.IsLiteral spelling.toList) :
    readText spelling = .error (.malformedText spelling) := by
  rw [← Text.unquote_is_some_iff, Option.not_isSome_iff_eq_none] at notLiteral
  simp only [readText, notLiteral]

/-- Every text is read from what it is written as. A spelling that is read as a text is what this
text is written as exactly if no escape in it could be left out. And what is read are the literals;
anything else is reported as malformed text. -/
theorem text_is_read_from_literals :
    (∀ contents : String, readText (Value.text contents).render = .ok (.text contents)) ∧
    (∀ spelling contents : String, readText spelling = .ok (.text contents) →
      ((Value.text contents).render = spelling ↔
        ∀ char, Text.Escapes spelling.toList char → char = '"' ∨ char = '\\')) ∧
    ∀ spelling : String,
      ((∃ contents, readText spelling = .ok (.text contents)) ↔
        Text.IsLiteral spelling.toList) ∧
      (¬Text.IsLiteral spelling.toList →
        readText spelling = .error (.malformedText spelling)) := by
  refine ⟨?_, ?_, ?_⟩
  · intro contents
    have quoted := Text.unquote?_quote contents.toList
    rw [← Value.to_list_render_text] at quoted
    rw [read_text_of_unquote quoted, String.ofList_toList]
  · intro spelling contents read
    rw [← String.toList_inj, Value.to_list_render_text]
    exact Text.quote_of_unquote_iff (unquote_of_read_text read)
  · intro spelling
    refine ⟨?_, read_text_of_not_literal⟩
    rw [← Text.unquote_is_some_iff, Option.isSome_iff_exists]
    constructor
    · intro read
      obtain ⟨contents, read⟩ := read
      exact ⟨contents.toList, unquote_of_read_text read⟩
    · intro quoted
      obtain ⟨contents, quoted⟩ := quoted
      exact ⟨String.ofList contents, read_text_of_unquote quoted⟩

theorem needless_escape_is_not_written_back :
    readText "\"a\\n\\\"\"" = .ok (.text "a\\n\"") ∧
      (Value.text "a\\n\"").render ≠ "\"a\\n\\\"\"" ∧
      (¬∀ char, Text.Escapes "\"a\\n\\\"\"".toList char → char = '"' ∨ char = '\\') ∧
      (∀ char, Text.Escapes "\"a\\\\n\\\"\"".toList char → char = '"' ∨ char = '\\') ∧
      readText "\"a\\\"" = .error (.malformedText "\"a\\\"") := by
  have read : readText "\"a\\n\\\"\"" = .ok (.text "a\\n\"") := by rfl
  have readAgain : readText "\"a\\\\n\\\"\"" = .ok (.text "a\\n\"") := by rfl
  have written : (Value.text "a\\n\"").render = "\"a\\\\n\\\"\"" := by rfl
  have different : (Value.text "a\\n\"").render ≠ "\"a\\n\\\"\"" := by
    rw [written]
    decide
  obtain ⟨-, back, refused⟩ := text_is_read_from_literals
  refine ⟨read, different, ?_, (back _ _ readAgain).mp written, ?_⟩
  · exact mt (back _ _ read).mpr different
  · exact (refused _).2 (by decide)

end TinyLisp
