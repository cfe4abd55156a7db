import TinyLisp.Proofs.Value.Grammar

/-!
Which fault a reading reports.

Reading descends into lists, and a fault comes up from wherever it lies. It is the first one that a
single pass over the tokens meets, and this pass keeps no more than the number of open lists. A
closing parenthesis is seen before the limit on nesting, the limit before any other token, and an
atom that spells nothing has a fault of its own.
-/

set_option autoImplicit false

namespace TinyLisp

/-- Whether an atom spells anything: quoted text, a numeral, or a name that does not look like a
numeral. -/
def isSpelling (spelling : List Char) : Bool :=
  (Text.unquote? spelling).isSome || (Numeral.read? spelling).isSome ||
    (isSymbolName spelling && !Numeral.looksNumeric spelling)

/-- The fault of an atom that spells nothing. One that looks numeric never starts with a quote. -/
def atomFault (spelling : String) : ReadError :=
  if Numeral.looksNumeric spelling.toList then .malformedNumber spelling
  else if '"' ∈ spelling.toList then .malformedText spelling
  else .invalidSymbol spelling

namespace Token

/-- How many lists are open after a token, where so many are before it. -/
def count (opened : Nat) : Token → Except ReadError Nat
  | .closeParen => if opened = 0 then .error .unexpectedClose else .ok (opened - 1)
  | .openParen =>
      if maxNesting ≤ opened then .error (.tooDeeplyNested maxNesting) else .ok (opened + 1)
  | .atom spelling =>
      if maxNesting ≤ opened then .error (.tooDeeplyNested maxNesting)
      else if isSpelling spelling.toList then .ok opened
      else .error (atomFault spelling)

/-- The first fault of some tokens, where so many lists are open before them. The pass may be
stopped as soon as no list is open any more. -/
def firstFault? (stopping : Bool) : Nat → List Token → Option ReadError
  | opened, [] => if opened = 0 then none else some .unclosedList
  | opened, token :: rest =>
      match token.count opened with
      | .error fault => some fault
      | .ok next => if stopping ∧ next = 0 then none else firstFault? stopping next rest

/-- What the pass meets where a reading goes on that has used so many tokens: the fault of the
reading, or else what lies behind the tokens that it has used in the end. -/
def faultOf? (stopping : Bool) (opened : Nat) (tokens : List Token) (used : Nat) :
    Except ReadError (Value × Nat) → Option ReadError
  | .error fault => some fault
  | .ok (_, spanned) =>
      if stopping ∧ opened = 0 then none
      else firstFault? stopping opened (tokens.drop (spanned - used))

end Token

theorem is_spelling_iff {spelling : String} :
    isSpelling spelling.toList = true ↔ ∃ value, AtomSpells spelling value := by
  constructor
  · intro spells
    cases numeral : Numeral.read? spelling.toList with
    | some number => exact ⟨_, .number numeral⟩
    | none =>
        simp only [isSpelling, numeral, Option.isSome_none, Bool.or_false, Bool.or_eq_true,
          Option.isSome_iff_exists, Bool.and_eq_true, Bool.not_eq_true'] at spells
        rcases spells with ⟨contents, quoted⟩ | ⟨isName, notNumeric⟩
        · exact ⟨_, .text quoted⟩
        · have name := (symbol_name_iff spelling).mp isName
          exact ⟨_, .symbol ⟨name.1, name.2, numeral, notNumeric⟩⟩
  · intro spelled
    obtain ⟨value, spelled⟩ := spelled
    cases spelled with
    | text quoted => simp [isSpelling, quoted]
    | number numeral => simp [isSpelling, numeral]
    | symbol readable =>
        have isName := (symbol_name_iff spelling).mpr ⟨readable.nonempty, readable.plain⟩
        simp [isSpelling, isName, readable.notNumeric]

theorem fault_of_read_atom {spelling : String} {fault : ReadError}
    (refused : readAtom spelling = .error fault) : fault = atomFault spelling := by
  simp only [readAtom, readText] at refused
  split at refused
  case isTrue head =>
    obtain ⟨rest, starts⟩ := List.head?_eq_some_iff.mp head
    have notNumeric : Numeral.looksNumeric spelling.toList = false := by
      rw [starts]
      rfl
    have quote : '"' ∈ spelling.toList := List.mem_of_head? head
    split at refused
    · contradiction
    · cases refused
      simp [atomFault, notNumeric, quote]
  case isFalse =>
    split at refused
    · contradiction
    · split at refused
      case isTrue numeric =>
        cases refused
        simp [atomFault, numeric]
      case isFalse notNumeric =>
        split at refused
        case isTrue quote =>
          cases refused
          simp [atomFault, notNumeric, List.contains_iff_mem.mp quote]
        case isFalse noQuote =>
          rw [List.contains_iff_mem] at noQuote
          split at refused
          · contradiction
          · cases refused
            simp [atomFault, notNumeric, noQuote]

theorem read_atom_of_no_spelling {spelling : String}
    (spellsNothing : ¬isSpelling spelling.toList = true) :
    readAtom spelling = .error (atomFault spelling) := by
  cases read : readAtom spelling with
  | ok value => exact absurd (is_spelling_iff.mpr ⟨value, atom_spells_of_read read⟩) spellsNothing
  | error fault => rw [fault_of_read_atom read]

namespace Token

variable {stopping : Bool} {opened : Nat} {token : Token} {rest : List Token}

theorem first_fault_of_count {fault : ReadError} (faulty : token.count opened = .error fault) :
    firstFault? stopping opened (token :: rest) = some fault := by
  rw [firstFault?, faulty]

theorem first_fault_past {next : Nat} (counted : token.count opened = .ok next) :
    firstFault? stopping opened (token :: rest) =
      if stopping ∧ next = 0 then none else firstFault? stopping next rest := by
  rw [firstFault?, counted]

end Token

namespace Value

/-- Where a list is open the pass goes on, also behind a value. -/
theorem fault_behind_element (stopping : Bool) (depth : Nat) (tokens : List Token) (value : Value)
    (spanned : Nat) :
    Token.faultOf? stopping (depth + 1) tokens 0 (.ok (value, spanned)) =
      Token.firstFault? stopping (depth + 1) (tokens.drop spanned) := by
  simp [Token.faultOf?]

/-- The pass meets the fault of a reading wherever this has descended to. Among the elements of a
list it does so with one list more open. Inside of lists, no value is read where a closing
parenthesis stands. -/
theorem first_fault_of_read (stopping : Bool) :
    (∀ depth tokens, tokens ≠ [] → (tokens.head? = some .closeParen → depth = 0) →
      Token.firstFault? stopping depth tokens =
        Token.faultOf? stopping depth tokens 0 (readAt depth tokens)) ∧
    (∀ depth earlier used tokens, depth < maxNesting →
      Token.firstFault? stopping (depth + 1) tokens =
        Token.faultOf? stopping depth tokens used (readElements depth earlier used tokens)) := by
  apply readAt.mutual_induct
  case case1 => -- no tokens
    intro depth given
    contradiction
  case case2 => -- no room for a value
    intro depth token rest full _ closes
    rw [read_at_full full]
    apply Token.first_fault_of_count
    cases token with
    | closeParen =>
        rw [closes rfl] at full
        contradiction
    | openParen | atom spelling => rw [Token.count, if_pos full]
  case case3 => -- a list
    intro depth rest notFull elementsMeet _ _
    have room : depth < maxNesting := Nat.not_le.mp notFull
    have counted : Token.count depth .openParen = .ok (depth + 1) := by
      rw [Token.count, if_neg notFull]
    rw [Token.first_fault_past counted, if_neg (by simp), read_at_open room, elementsMeet room]
    cases read : readElements depth [] 1 rest with
    | error fault => rfl
    | ok result =>
        obtain ⟨parts, elements, back, rfl, total, -⟩ :=
          spelled_of_read.2 _ _ _ _ room result.1 result.2 read
        simp only [Token.faultOf?, total]
        rw [Nat.add_assoc, Nat.add_sub_cancel_left, Nat.add_comm 1, Nat.sub_zero]
        rfl
  case case4 => -- a closing parenthesis where no list is open
    intro depth rest notFull _ closes
    rw [readAt, if_neg notFull]
    apply Token.first_fault_of_count
    rw [Token.count, if_pos (closes rfl)]
  case case5 => -- an atom
    intro depth rest notFull spelling _ _
    rw [read_at_atom (Nat.not_le.mp notFull)]
    by_cases spells : isSpelling spelling.toList = true
    · have counted : Token.count depth (.atom spelling) = .ok depth := by
        rw [Token.count, if_neg notFull, if_pos spells]
      obtain ⟨value, spelled⟩ := is_spelling_iff.mp spells
      rw [Token.first_fault_past counted, read_of_atom_spells spelled]
      rfl
    · rw [read_atom_of_no_spelling spells]
      apply Token.first_fault_of_count
      rw [Token.count, if_neg notFull, if_neg spells]
  case case6 => -- the tokens end inside a list
    intro depth earlier used _
    rw [readElements]
    rfl
  case case7 => -- the end of a list
    intro depth earlier used rest _
    have counted : Token.count (depth + 1) .closeParen = .ok depth := rfl
    rw [readElements, Token.first_fault_past counted, Token.faultOf?, Nat.add_sub_cancel_left]
    rfl
  case case8 => -- an element with a fault
    intro depth earlier used token rest notClose fault elementFails elementMeets _
    rw [read_elements_fault notClose elementFails]
    rw [elementFails] at elementMeets
    exact elementMeets (List.cons_ne_nil token rest) fun closes =>
      absurd (Option.some.inj closes) notClose
  case case9 => -- an element, and what is behind it
    intro depth earlier used token rest notClose element spanned elementRead elementMeets
      laterMeets room
    have passed := elementMeets (List.cons_ne_nil token rest) fun closes =>
      absurd (Option.some.inj closes) notClose
    have behind := drop_spanned elementRead
    rw [elementRead, fault_behind_element, behind, laterMeets room] at passed
    rw [passed, read_elements_element notClose elementRead]
    cases read : readElements depth (element :: earlier) (used + spanned)
      (rest.drop (spanned - 1)) with
    | error fault => rfl
    | ok result =>
        obtain ⟨parts, elements, back, -, total, -⟩ :=
          spelled_of_read.2 _ _ _ _ room result.1 result.2 read
        have along : result.2 - used = spanned + (result.2 - (used + spanned)) := by omega
        simp only [Token.faultOf?]
        rw [along, ← List.drop_drop, behind]

theorem first_fault_of_read_outermost (stopping : Bool) {tokens : List Token}
    (given : tokens ≠ []) :
    Token.firstFault? stopping 0 tokens = Token.faultOf? stopping 0 tokens 0 (readAt 0 tokens) :=
  (first_fault_of_read stopping).1 0 tokens given fun _ => rfl

/-- Reading values one behind the other fails with the fault that the pass meets. -/
theorem first_fault_of_read_onward (earlier : List Value) (tokens : List Token)
    (fault : ReadError) :
    readOnward earlier tokens = .error fault ↔ Token.firstFault? false 0 tokens = some fault := by
  fun_induction readOnward earlier tokens with
  | case1 earlier => simp [Token.firstFault?]
  | case2 earlier token rest first fails =>
      rw [first_fault_of_read_outermost false (List.cons_ne_nil token rest), fails]
      simp [Token.faultOf?]
  | case3 earlier token rest value spanned read ih =>
      rw [ih, first_fault_of_read_outermost false (List.cons_ne_nil token rest), read]
      simp [Token.faultOf?, drop_spanned read]

theorem read_first_fault {tokens : List Token} (given : tokens ≠ []) (fault : ReadError) :
    readFirst tokens = .error fault ↔ Token.firstFault? true 0 tokens = some fault := by
  rw [first_fault_of_read_outermost true given, readFirst]
  cases readAt 0 tokens <;> simp [Token.faultOf?, Except.map]

end Value

namespace Token

theorem count_ne_empty_input (opened : Nat) (token : Token) :
    token.count opened ≠ .error .emptyInput := by
  cases token with
  | closeParen | openParen =>
      simp only [count]
      split <;> nofun
  | atom spelling =>
      have ordinary : atomFault spelling ≠ .emptyInput := by
        unfold atomFault
        split
        · nofun
        · split <;> nofun
      simp only [count]
      split
      · nofun
      · split
        · nofun
        · simp [ordinary]

theorem first_fault_ne_empty_input (stopping : Bool) (opened : Nat) (tokens : List Token) :
    firstFault? stopping opened tokens ≠ some .emptyInput := by
  induction tokens generalizing opened with
  | nil =>
      rw [firstFault?]
      split <;> nofun
  | cons token rest ih =>
      have ordinary := count_ne_empty_input opened token
      rw [firstFault?]
      cases counted : token.count opened with
      | error fault =>
          rw [counted] at ordinary
          simpa using ordinary
      | ok next =>
          dsimp only
          split
          · nofun
          · exact ih next

end Token

/-- The spellings of atoms that an error reports. -/
def ReadError.spelled : ReadError → List String
  | .malformedNumber spelling => [spelling]
  | .malformedText spelling => [spelling]
  | .invalidSymbol spelling => [spelling]
  | _ => []

theorem spelled_atom_fault (spelling : String) : (atomFault spelling).spelled = [spelling] := by
  unfold atomFault
  split
  · rfl
  · split <;> rfl

namespace Token

theorem refused_of_count {opened : Nat} {token : Token} {fault : ReadError}
    (faulty : token.count opened = .error fault) :
    ∀ spelling ∈ fault.spelled, token = .atom spelling ∧ readAtom spelling = .error fault := by
  cases token with
  | closeParen | openParen =>
      rw [count] at faulty
      split at faulty
      · cases faulty
        exact List.forall_mem_nil _
      · contradiction
  | atom word =>
      rw [count] at faulty
      split at faulty
      · cases faulty
        exact List.forall_mem_nil _
      · split at faulty
        case isTrue => contradiction
        case isFalse spellsNothing =>
          rw [← Except.error.inj faulty, spelled_atom_fault]
          exact List.forall_mem_singleton.mpr ⟨rfl, read_atom_of_no_spelling spellsNothing⟩

theorem refused_of_first_fault {stopping : Bool} {opened : Nat} {tokens : List Token}
    {fault : ReadError} (met : firstFault? stopping opened tokens = some fault) :
    ∀ spelling ∈ fault.spelled, .atom spelling ∈ tokens ∧ readAtom spelling = .error fault := by
  induction tokens generalizing opened with
  | nil =>
      rw [firstFault?] at met
      split at met
      · contradiction
      · cases met
        exact List.forall_mem_nil _
  | cons token rest ih =>
      intro spelling reported
      cases counted : token.count opened with
      | error earlier =>
          rw [first_fault_of_count counted] at met
          cases met
          obtain ⟨isAtom, refused⟩ := refused_of_count counted spelling reported
          exact ⟨isAtom ▸ List.mem_cons_self, refused⟩
      | ok next =>
          rw [first_fault_past counted] at met
          split at met
          · contradiction
          · obtain ⟨later, refused⟩ := ih met spelling reported
            exact ⟨List.mem_cons_of_mem token later, refused⟩

end Token

/-- What a failed reading reports is the spelling of one of its atoms, which is refused by itself
too. -/
theorem Value.refused_of_read_all {tokens : List Token} {fault : ReadError}
    (refused : readAll tokens = .error fault) :
    ∀ spelling ∈ fault.spelled, .atom spelling ∈ tokens ∧ readAtom spelling = .error fault :=
  Token.refused_of_first_fault ((first_fault_of_read_onward [] tokens fault).mp refused)

/-- Reading all tokens fails with the first fault that the counting pass meets, and reading the
first value fails with the one that it meets before a value is complete. Only where there are no
tokens does it fail for want of them. -/
theorem reading_reports_first_fault (tokens : List Token) (fault : ReadError) :
    (Value.readAll tokens = .error fault ↔ Token.firstFault? false 0 tokens = some fault) ∧
    (Value.readFirst tokens = .error fault ↔
      if tokens = [] then fault = .emptyInput else Token.firstFault? true 0 tokens = some fault) ∧
    (Value.readFirst tokens = .error .emptyInput ↔ tokens = []) := by
  refine ⟨Value.first_fault_of_read_onward [] tokens fault, ?_, ?_⟩
  · by_cases none : tokens = []
    · subst none
      simp [Value.readFirst, Value.readAt, Except.map, eq_comm]
    · rw [if_neg none, Value.read_first_fault none]
  · constructor
    · intro failed
      by_contra given
      rw [Value.read_first_fault given] at failed
      exact Token.first_fault_ne_empty_input true 0 tokens failed
    · intro none
      rw [none, Value.readFirst, Value.readAt]
      rfl

-- The innermost list that may be opened has no room for an element, but it can be closed.
example :
    let opens := List.replicate maxNesting Token.openParen
    Token.firstFault? false 0 (opens ++ .replicate maxNesting .closeParen) = none ∧
      Token.firstFault? false 0 (opens ++ [.atom "a"]) = some (.tooDeeplyNested maxNesting) := by
  decide +kernel

end TinyLisp
