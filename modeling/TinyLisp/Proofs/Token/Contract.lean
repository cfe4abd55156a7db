import TinyLisp.Proofs.Token.Scanning
import TinyLisp.Proofs.Value.Faults
import TinyLisp.Proofs.Value.Reading

/-!
What reading can rely on in the tokens of a text.

A bare atom has no separator in it. A quoted one is a literal, which reading accepts, or it has been
cut short by a closing parenthesis. Then that is the next token, and reading refuses the atom. So no
atom of a text is without any kind, and the only literals refused stand before a closing
parenthesis.
-/

set_option autoImplicit false

namespace TinyLisp

namespace Token

theorem is_bare_singleton {char : Char} (ordinary : IsOrdinary char) (notQuote : char ≠ '"') :
    IsBare [char] where
  nonempty := List.cons_ne_nil _ _
  unquoted := by simpa using notQuote
  ordinary := List.forall_mem_singleton.mpr ordinary

theorem IsBare.concat {spelling : List Char} (isBare : IsBare spelling) {char : Char}
    (ordinary : IsOrdinary char) : IsBare (spelling ++ [char]) where
  nonempty := List.append_ne_nil_of_right_ne_nil _ (List.cons_ne_nil _ _)
  unquoted := by
    rw [List.head?_append_of_ne_nil _ isBare.nonempty]
    exact isBare.unquoted
  ordinary := List.forall_mem_append.mpr
    ⟨isBare.ordinary, List.forall_mem_singleton.mpr ordinary⟩

end Token

namespace Pending

/-- What the atom in progress can be: a bare one, or contents that have not closed a literal yet. -/
def Sound : Pending → Prop
  | .none => True
  | .bare spelling => Token.IsBare spelling.toList
  | .quoted spelling escaped =>
      ∃ contents, .quoted spelling escaped = literal contents ∧ Text.Unclosed contents

variable {pending next : Pending} {char : Char} {completed : List Token}

theorem sound_advance (sound : pending.Sound) (advanced : Advances pending char completed next) :
    next.Sound := by
  cases advanced with
  | opens => exact sound
  | startsBare ordinary notQuote =>
      rw [Sound, String.toList_singleton]
      exact Token.is_bare_singleton ordinary notQuote
  | startsQuoted =>
      refine ⟨[], ?_, Text.unclosed_nil⟩
      rw [literal, decide_eq_false Text.not_escapes_next_nil]
  | extendsBare spelling ordinary =>
      rw [Sound, String.toList_push]
      exact Token.IsBare.concat sound ordinary
  | extendsQuoted spelling notOpen notClose goesOn =>
      obtain ⟨contents, same, unclosed⟩ := sound
      obtain ⟨rfl, rfl⟩ := Pending.quoted.inj same
      refine ⟨contents ++ [char], literal_push contents char, ?_⟩
      rw [Text.unclosed_concat_iff]
      exact ⟨unclosed, fun quote => of_decide_eq_true (goesOn quote)⟩
  | _ => trivial

/-- How an atom is completed: a bare one by whatever ends it, a quoted one by its closing quote or
by a closing parenthesis that cuts it short. -/
theorem atom_of_advances (advanced : Advances pending char completed next)
    {earlier later : List Token} {spelling : String}
    (emitted : completed = earlier ++ .atom spelling :: later) :
    earlier = [] ∧
      (pending = .bare spelling ∨
        (char = '"' ∧ ∃ front, pending = .quoted front false ∧ spelling = front.push '"') ∨
        (char = ')' ∧ later = [.closeParen] ∧ ∃ escaped, pending = .quoted spelling escaped)) := by
  cases advanced with
  | opens =>
      cases earlier <;> simp at emitted
  | closes =>
      cases pending with
      | none => cases earlier <;> simp [flush] at emitted
      | bare word =>
          rcases earlier with _ | ⟨first, _ | ⟨second, earlier⟩⟩ <;> simp [flush] at emitted
          exact ⟨rfl, .inl (congrArg Pending.bare emitted.1)⟩
      | quoted word escaped =>
          rcases earlier with _ | ⟨first, _ | ⟨second, earlier⟩⟩ <;> simp [flush] at emitted
          obtain ⟨rfl, rfl⟩ := emitted
          exact ⟨rfl, .inr (.inr ⟨rfl, rfl, escaped, rfl⟩)⟩
  | endsBare word separator =>
      cases earlier <;> simp at emitted
      exact ⟨rfl, .inl (congrArg Pending.bare emitted.1)⟩
  | endsQuoted front =>
      cases earlier <;> simp at emitted
      exact ⟨rfl, .inr (.inl ⟨rfl, front, rfl, emitted.1.symm⟩)⟩
  | _ => simp at emitted

end Pending

namespace Token

theorem sound_scan {pending : Pending} (sound : pending.Sound) (source : List Char) :
    (scan pending source).2.Sound := by
  induction source generalizing pending with
  | nil => exact sound
  | cons char source ih => exact ih (Pending.sound_advance sound (pending.advances char))

/-- Each token is completed by one character of the text, behind the tokens that were completed
before it. -/
theorem completed_at {pending : Pending} {source : List Char} {before behind : List Token}
    {token : Token} (scanned : (scan pending source).1 = before ++ token :: behind) :
    ∃ front char back earlier later, source = front ++ char :: back ∧
      before = (scan pending front).1 ++ earlier ∧
      ((scan pending front).2.advance char).1 = earlier ++ token :: later ∧
      behind = later ++ (scan ((scan pending front).2.advance char).2 back).1 := by
  induction source generalizing pending before with
  | nil => simp [scan] at scanned
  | cons char source ih =>
      rw [scan_cons] at scanned
      have completed : (∃ later, (pending.advance char).1 = before ++ token :: later ∧
            behind = later ++ (scan (pending.advance char).2 source).1) ∨
          ∃ inner, before = (pending.advance char).1 ++ inner ∧
            (scan (pending.advance char).2 source).1 = inner ++ token :: behind := by
        rcases List.append_eq_append_iff.mp scanned with
          ⟨inner, split, rest⟩ | ⟨_ | ⟨first, later⟩, split, rest⟩
        · exact .inr ⟨inner, split, rest⟩
        · rw [List.append_nil] at split
          exact .inr ⟨[], by rw [split, List.append_nil], rest.symm⟩
        · obtain ⟨rfl, rfl⟩ := List.cons.inj rest
          exact .inl ⟨later, split, rfl⟩
      rcases completed with ⟨later, emitted, rfl⟩ | ⟨inner, rfl, rest⟩
      · exact ⟨[], char, source, before, later, rfl, rfl, emitted, rfl⟩
      · obtain ⟨front, ender, back, earlier, later, rfl, rfl, emitted, rfl⟩ := ih rest
        refine ⟨char :: front, ender, back, earlier, later, rfl, ?_, emitted, rfl⟩
        rw [scan_cons, emit, List.append_assoc]

/-- Whether a character of a text completes an atom right behind the tokens before it. -/
def CompletedBy (source : String) (before : List Token) (spelling : String) (char : Char) : Prop :=
  ∃ front back, source.toList = front ++ char :: back ∧ tokenize (String.ofList front) = before ∧
    ∃ later, tokenize (String.ofList (front ++ [char])) = before ++ Token.atom spelling :: later

/-- Every atom of a text is bare, a literal that its closing quote has completed, or a literal that
a closing parenthesis has cut short. -/
theorem atom_of_tokenize {source : String} {before behind : List Token} {spelling : String}
    (scanned : tokenize source = before ++ .atom spelling :: behind) :
    IsBare spelling.toList ∨
      (Text.IsLiteral spelling.toList ∧ CompletedBy source before spelling '"') ∨
      (Text.IsCutLiteral spelling.toList ∧ CompletedBy source before spelling ')' ∧
        ∃ rest, behind = .closeParen :: rest) := by
  obtain ⟨front, char, back, earlier, later, split, rfl, emitted, rfl⟩ := completed_at scanned
  have nothing : Pending.none.Sound := trivial
  have sound := sound_scan nothing front
  obtain ⟨rfl, kind⟩ := Pending.atom_of_advances ((scan .none front).2.advances char) emitted
  rw [List.append_nil]
  have completedBy : CompletedBy source (scan .none front).1 spelling char := by
    refine ⟨front, back, split, by rw [tokenize, String.toList_ofList], later, ?_⟩
    rw [tokenize, String.toList_ofList, scan_append, scan_cons, emitted]
    simp [emit, scan]
  rcases kind with bare | ⟨rfl, unfinished, quoted, rfl⟩ | ⟨rfl, rfl, escaped, quoted⟩
  · rw [bare] at sound
    exact .inl sound
  · rw [quoted] at sound
    obtain ⟨contents, same, unclosed⟩ := sound
    obtain ⟨rfl, unescaped⟩ := Pending.quoted.inj same
    refine .inr (.inl ⟨⟨contents ++ ['"'], ?_, contents, rfl, unclosed, ?_⟩, completedBy⟩)
    · rw [push_of_list, String.toList_ofList, List.cons_append]
    · exact of_decide_eq_false unescaped.symm
  · rw [quoted] at sound
    obtain ⟨contents, same, unclosed⟩ := sound
    obtain ⟨rfl, -⟩ := Pending.quoted.inj same
    exact .inr (.inr ⟨⟨contents, String.toList_ofList, unclosed⟩, completedBy, _, rfl⟩)

end Token

theorem read_atom_literal {spelling : String} (isLiteral : Text.IsLiteral spelling.toList) :
    ∃ contents, readAtom spelling = .ok (.text contents) := by
  rw [← Text.unquote_is_some_iff, Option.isSome_iff_exists] at isLiteral
  obtain ⟨contents, quoted⟩ := isLiteral
  exact ⟨String.ofList contents, read_of_atom_spells (.text quoted)⟩

theorem read_atom_cut {spelling : String} (cut : Text.IsCutLiteral spelling.toList) :
    readAtom spelling = .error (.malformedText spelling) := by
  have refused : Text.unquote? spelling.toList = none := by
    rw [← Option.not_isSome_iff_eq_none, Text.unquote_is_some_iff]
    exact cut.not_literal
  obtain ⟨contents, starts, -⟩ := cut
  have head : spelling.toList.head? = some '"' := by rw [starts, List.head?_cons]
  simp only [readAtom, if_pos head, readText, refused]

/-- A bare atom without quotes is a symbol, unless it looks like a number. -/
theorem is_spelling_of_bare {spelling : String} (isBare : Token.IsBare spelling.toList)
    (notNumeric : Numeral.looksNumeric spelling.toList = false) (noQuote : '"' ∉ spelling.toList) :
    isSpelling spelling.toList = true := by
  have allowed : ∀ char ∈ spelling.toList, isForbiddenInSymbol char = false := by
    intro char member
    obtain ⟨notOpen, notClose, notSeparator⟩ := isBare.ordinary char member
    have notQuote : char ≠ '"' := by
      intro quote
      exact noQuote (quote ▸ member)
    simp [isForbiddenInSymbol, notQuote, notOpen, notClose,
      Token.not_separator_iff.mpr notSeparator]
  have isName : isSymbolName spelling.toList = true := by
    simpa [isSymbolName, isBare.nonempty] using allowed
  simp [isSpelling, isName, notNumeric]

theorem read_atom_ne_invalid_symbol {spelling other : String}
    (kind : Token.IsBare spelling.toList ∨ spelling.toList.head? = some '"') :
    readAtom spelling ≠ .error (.invalidSymbol other) := by
  intro refused
  have fault := fault_of_read_atom refused
  unfold atomFault at fault
  split at fault
  · contradiction
  case isFalse notNumeric =>
    split at fault
    · contradiction
    case isFalse noQuote =>
      rcases kind with isBare | head
      · have spells := is_spelling_of_bare isBare (Bool.eq_false_iff.mpr notNumeric) noQuote
        obtain ⟨value, spelled⟩ := is_spelling_iff.mp spells
        rw [read_of_atom_spells spelled] at refused
        contradiction
      · exact noQuote (List.mem_of_head? head)

namespace Token

variable {source : String} {before behind : List Token} {spelling : String}

theorem starts_with_quote_iff (scanned : tokenize source = before ++ .atom spelling :: behind) :
    spelling.toList.head? = some '"' ↔ ¬IsBare spelling.toList := by
  constructor
  · intro head isBare
    exact isBare.unquoted head
  · intro notBare
    rcases atom_of_tokenize scanned with isBare | ⟨⟨rest, starts, -⟩, -⟩ | ⟨⟨rest, starts, -⟩, -⟩
    · contradiction
    · rw [starts, List.head?_cons]
    · rw [starts, List.head?_cons]

theorem read_of_quoted_atom (scanned : tokenize source = before ++ .atom spelling :: behind)
    (head : spelling.toList.head? = some '"') :
    (CompletedBy source before spelling '"' ∧ Text.IsLiteral spelling.toList ∧
        ∃ contents, readAtom spelling = .ok (.text contents)) ∨
      (CompletedBy source before spelling ')' ∧ Text.IsCutLiteral spelling.toList ∧
        (∃ rest, behind = .closeParen :: rest) ∧
        readAtom spelling = .error (.malformedText spelling)) := by
  rcases atom_of_tokenize scanned with isBare | ⟨isLiteral, closed⟩ | ⟨isCut, cut, followed⟩
  · exact absurd head isBare.unquoted
  · exact .inl ⟨closed, isLiteral, read_atom_literal isLiteral⟩
  · exact .inr ⟨cut, isCut, followed, read_atom_cut isCut⟩

theorem atom_is_fit (scanned : tokenize source = before ++ .atom spelling :: behind) :
    spelling ≠ "" ∧ ParenFree spelling.toList ∧
      (spelling.toList.head? ≠ some '"' → ∀ char ∈ spelling.toList, char ∉ [' ', '\r', '\n']) := by
  have quoted := starts_with_quote_iff scanned
  have listed : .atom spelling ∈ tokenize source := by simp [scanned]
  have free : ParenFree spelling.toList := paren_free_tokenize source _ listed
  refine ⟨?_, free, ?_⟩
  · intro empty
    subst empty
    exact quoted.not.mp (by simp) fun isBare => isBare.nonempty rfl
  · intro unquoted char member
    have isBare := not_not.mp (mt quoted.mpr unquoted)
    exact (isBare.ordinary char member).2.2

/-- A fault that names an atom is a fault of an atom of the text. -/
theorem refused_atom {fault : ReadError} (refused : Value.readAll (tokenize source) = .error fault)
    (named : spelling ∈ fault.spelled) :
    ∃ before behind, tokenize source = before ++ Token.atom spelling :: behind ∧
      readAtom spelling = .error fault := by
  obtain ⟨listed, atomRefused⟩ := Value.refused_of_read_all refused spelling named
  obtain ⟨before, behind, scanned⟩ := List.append_of_mem listed
  exact ⟨before, behind, scanned, atomRefused⟩

end Token

/-- What reading can rely on in the tokens of a text, and what follows for the faults that it
reports. -/
theorem tokens_are_fit_for_reading (source : String) :
    (∀ before token behind, Token.tokenize source = before ++ token :: behind →
      token = .openParen ∨ token = .closeParen ∨
        ∃ spelling, token = Token.atom spelling ∧ spelling ≠ "" ∧ ParenFree spelling.toList ∧
          (spelling.toList.head? ≠ some '"' →
            ∀ char ∈ spelling.toList, char ∉ [' ', '\r', '\n']) ∧
          (spelling.toList.head? = some '"' →
            (Token.CompletedBy source before spelling '"' ∧ Text.IsLiteral spelling.toList ∧
                ∃ contents, readAtom spelling = .ok (.text contents)) ∨
              (Token.CompletedBy source before spelling ')' ∧ Text.IsCutLiteral spelling.toList ∧
                (∃ rest, behind = Token.closeParen :: rest) ∧
                readAtom spelling = .error (.malformedText spelling)))) ∧
      ∀ fault, Value.readAll (Token.tokenize source) = .error fault →
        fault ≠ .emptyInput ∧ (∀ spelling, fault ≠ .invalidSymbol spelling) ∧
          ∀ spelling, fault = .malformedText spelling → spelling.toList.head? = some '"' →
            ∃ before behind,
              Token.tokenize source =
                before ++ Token.atom spelling :: Token.closeParen :: behind := by
  constructor
  · intro before token behind scanned
    cases token with
    | openParen => exact .inl rfl
    | closeParen => exact .inr (.inl rfl)
    | atom spelling =>
        obtain ⟨nonempty, free, unseparated⟩ := Token.atom_is_fit scanned
        exact .inr (.inr ⟨spelling, rfl, nonempty, free, unseparated,
          Token.read_of_quoted_atom scanned⟩)
  · intro fault refused
    refine ⟨?_, ?_, ?_⟩
    · intro empty
      subst empty
      have counted := (Value.first_fault_of_read_onward [] _ _).mp refused
      exact Token.first_fault_ne_empty_input false 0 _ counted
    · intro spelling invalid
      subst invalid
      obtain ⟨before, behind, scanned, atomRefused⟩ :=
        Token.refused_atom refused List.mem_cons_self
      have kind := Classical.em (Token.IsBare spelling.toList)
      rw [← Token.starts_with_quote_iff scanned] at kind
      exact read_atom_ne_invalid_symbol kind atomRefused
    · intro spelling malformed head
      subst malformed
      obtain ⟨before, behind, scanned, atomRefused⟩ :=
        Token.refused_atom refused List.mem_cons_self
      rcases Token.read_of_quoted_atom scanned head with
        ⟨-, -, contents, read⟩ | ⟨-, -, ⟨rest, followed⟩, -⟩
      · rw [read] at atomRefused
        contradiction
      · exact ⟨before, rest, followed ▸ scanned⟩

-- The quote at the end of the atom is escaped, so the parenthesis cuts the literal short.
theorem literal_cut_after_escaped_quote :
    let source := "(\"a\\\")"
    let spelling := "\"a\\\""
    Token.CompletedBy source [.openParen] spelling ')' ∧
      Value.readAll (Token.tokenize source) = .error (.malformedText spelling) ∧
      ∃ before behind,
        Token.tokenize source = before ++ .atom spelling :: .closeParen :: behind := by
  intro source spelling
  have scanned : Token.tokenize source = [.openParen] ++ .atom spelling :: [.closeParen] := by
    cbv
  have refused : Value.readAll (Token.tokenize source) = .error (.malformedText spelling) := by
    cbv
  have head : spelling.toList.head? = some '"' := by cbv
  have fit := tokens_are_fit_for_reading source
  refine ⟨?_, refused, (fit.2 _ refused).2.2 spelling rfl head⟩
  rcases fit.1 _ _ _ scanned with isOpen | isClose | ⟨_, same, -, -, -, quoted⟩
  · contradiction
  · contradiction
  · cases same
    rcases quoted head with ⟨-, isLiteral, -⟩ | ⟨cut, -⟩
    · exact absurd isLiteral (by decide)
    · exact cut

end TinyLisp
