import TinyLisp.Proofs.Token.Scanning

/-!
What the scanner keeps of a text.

The tokens spell the text again, in order, except for three things. Separators may be lost, an
opening parenthesis stands before the atom that it interrupts, and an atom that the text does not
end is dropped.
-/

set_option autoImplicit false

namespace TinyLisp

namespace Token

def isParen : Token → Bool
  | .atom _ => false
  | _ => true

/-- What tokens spell, one behind the other. -/
def spelled (tokens : List Token) : List Char :=
  tokens.flatMap fun token => token.spelling.toList

theorem spelled_append (front back : List Token) :
    spelled (front ++ back) = spelled front ++ spelled back :=
  List.flatMap_append

theorem filter_ne_open {tokens : List Token} (noOpen : .openParen ∉ tokens) :
    tokens.filter (· ≠ .openParen) = tokens := by
  rw [List.filter_eq_self]
  intro token member
  apply decide_eq_true
  intro isOpen
  exact noOpen (isOpen ▸ member)

end Token

namespace Pending

def spelled : Pending → List Char
  | .none => []
  | .bare spelling => spelling.toList
  | .quoted spelling _ => spelling.toList

theorem only_spelled {Allowed : Char → Prop} {pending : Pending} (only : pending.Only Allowed) :
    ∀ char ∈ pending.spelled, Allowed char := by
  cases pending with
  | none => exact List.forall_mem_nil _
  | bare spelling => exact only
  | quoted spelling escaped => exact only

theorem spelled_flush (pending : Pending) : Token.spelled pending.flush = pending.spelled := by
  cases pending with
  | none => rfl
  | bare spelling => exact List.append_nil _
  | quoted spelling escaped => exact List.append_nil _

variable {pending next : Pending} {char : Char} {completed : List Token}

theorem separator_erased (separator : char ∈ [' ', '\r', '\n']) :
    [char].filter (· ∉ ['(', ' ', '\r', '\n']) = [] := by
  have erased : char ∈ ['(', ' ', '\r', '\n'] := List.mem_cons_of_mem '(' separator
  simp only [List.filter_cons, List.filter_nil, erased, not_true_eq_false, decide_false]
  rfl

/-- A parenthesis completes itself, and nothing else completes one. -/
theorem parens_of_advances (advanced : Advances pending char completed next) :
    Token.spelled (completed.filter Token.isParen) =
      [char].filter fun char => char = '(' ∨ char = ')' := by
  cases advanced with
  | opens => rfl
  | closes => cases pending <;> rfl
  | skips separator => simp [Token.spelled, Token.separator_ne_paren separator]
  | startsBare ordinary => simp [Token.spelled, ordinary.1, ordinary.2.1]
  | startsQuoted => rfl
  | endsBare spelling separator =>
      simp [Token.spelled, Token.isParen, Token.separator_ne_paren separator]
  | extendsBare spelling ordinary => simp [Token.spelled, ordinary.1, ordinary.2.1]
  | endsQuoted spelling => rfl
  | extendsQuoted spelling notOpen notClose => simp [Token.spelled, notOpen, notClose]

/-- Only an opening parenthesis completes one. -/
theorem open_not_mem_of_advances (advanced : Advances pending char completed next)
    (notOpen : char ≠ '(') : .openParen ∉ completed := by
  cases advanced with
  | opens => contradiction
  | closes => cases pending <;> simp [flush]
  | _ => simp

/-- What a character completes and the atom then in progress spell what was in progress before, and
the character itself, unless it is an opening parenthesis or a separator. -/
theorem spelled_of_advances (advanced : Advances pending char completed next) :
    (Token.spelled (completed.filter (· ≠ .openParen)) ++ next.spelled).filter
        (· ∉ [' ', '\r', '\n']) =
      pending.spelled.filter (· ∉ [' ', '\r', '\n']) ++
        [char].filter (· ∉ ['(', ' ', '\r', '\n']) := by
  cases advanced with
  | opens => simp [Token.spelled]
  | closes =>
      have noOpen := open_not_mem_of_advances (.closes pending) (by decide)
      rw [Token.filter_ne_open noOpen, Token.spelled_append, spelled_flush, List.append_assoc,
        List.filter_append]
      rfl
  | skips separator =>
      rw [separator_erased separator]
      rfl
  | startsBare ordinary notQuote =>
      simp [Token.spelled, spelled, List.filter_cons, ordinary.1]
  | startsQuoted => rfl
  | endsBare spelling separator =>
      rw [separator_erased separator]
      simp [Token.spelled, Token.spelling, spelled]
  | extendsBare spelling ordinary =>
      simp [Token.spelled, spelled, List.filter_cons, ordinary.1]
  | endsQuoted spelling => simp [Token.spelled, Token.spelling, spelled]
  | extendsQuoted spelling notOpen notClose =>
      simp [Token.spelled, spelled, List.filter_cons, notOpen]

end Pending

namespace Token

theorem parens_of_scan (pending : Pending) (source : List Char) :
    spelled ((scan pending source).1.filter isParen) =
      source.filter fun char => char = '(' ∨ char = ')' := by
  induction source generalizing pending with
  | nil => rfl
  | cons char source ih =>
      have first := Pending.parens_of_advances (pending.advances char)
      rw [scan_cons, emit, List.filter_append, spelled_append, first, ih, ← List.filter_append,
        List.singleton_append]

/-- The atom in progress goes on behind an opening parenthesis as if it were not there. -/
theorem scan_without_opens (pending : Pending) (source : List Char) :
    scan pending (source.filter (· ≠ '(')) =
      ((scan pending source).1.filter (· ≠ .openParen), (scan pending source).2) := by
  induction source generalizing pending with
  | nil => rfl
  | cons char source ih =>
      by_cases isOpen : char = '('
      · subst isOpen
        exact ih pending
      · have noOpen := Pending.open_not_mem_of_advances (pending.advances char) isOpen
        have kept : (char :: source).filter (· ≠ '(') = char :: source.filter (· ≠ '(') := by
          simp [isOpen]
        rw [kept, scan_cons, scan_cons, ih, emit, emit, List.filter_append, filter_ne_open noOpen]

theorem spelled_of_scan (pending : Pending) (source : List Char) :
    (spelled ((scan pending source).1.filter (· ≠ .openParen)) ++
        (scan pending source).2.spelled).filter (· ∉ [' ', '\r', '\n']) =
      pending.spelled.filter (· ∉ [' ', '\r', '\n']) ++
        source.filter (· ∉ ['(', ' ', '\r', '\n']) := by
  induction source generalizing pending with
  | nil => simp [scan, spelled]
  | cons char source ih =>
      have first := Pending.spelled_of_advances (pending.advances char)
      have later := ih (pending.advance char).2
      rw [List.filter_append] at first later
      simp only [scan_cons, emit, List.filter_append, spelled_append, List.append_assoc]
      rw [later, ← List.append_assoc, first, List.append_assoc, ← List.filter_append,
        List.singleton_append]

/-- No atom is in progress behind a closing parenthesis. -/
theorem scan_closed {source : List Char} (closed : source.getLast? = some ')') :
    (scan .none source).2 = .none := by
  obtain ⟨front, rfl⟩ := List.getLast?_eq_some_iff.mp closed
  rw [scan_append]
  rfl

/-- The parentheses among the tokens are those of the text. Without its opening parentheses the text
has the other tokens. And these spell the rest of the text up to its separators and up to an atom
that it does not end, in which no parenthesis stands and which a closing one would end. -/
theorem scanner_loses_nothing (source : String) :
    spelled ((tokenize source).filter isParen) =
        source.toList.filter (fun char => char = '(' ∨ char = ')') ∧
      tokenize (String.ofList (source.toList.filter (· ≠ '('))) =
        (tokenize source).filter (· ≠ .openParen) ∧
      ∃ dropped : List Char, ParenFree dropped ∧
        (source.toList.getLast? = some ')' → dropped = []) ∧
        (spelled ((tokenize source).filter (· ≠ .openParen)) ++ dropped).filter
            (· ∉ [' ', '\r', '\n']) =
          source.toList.filter (· ∉ ['(', ' ', '\r', '\n']) := by
  have droppedFree : ParenFree (scan .none source.toList).2.spelled :=
    paren_free_of_forall (Pending.only_spelled (no_parens_scan source.toList).2)
  refine ⟨parens_of_scan .none source.toList, ?_, (scan .none source.toList).2.spelled,
    droppedFree, ?_, spelled_of_scan .none source.toList⟩
  · rw [tokenize, String.toList_ofList, scan_without_opens]
    rfl
  · intro closed
    rw [scan_closed closed]
    rfl

-- The closing parenthesis ends the literal too, so all that is not an opening one is kept.
theorem closed_text_is_kept :
    let source := "ab(cd \"e f\\)"
    source.toList.getLast? = some ')' ∧
      (spelled ((tokenize source).filter (· ≠ .openParen))).filter (· ∉ [' ', '\r', '\n']) =
        "abcd\"ef\\)".toList := by
  intro source
  have closed : source.toList.getLast? = some ')' := by simp [source]
  obtain ⟨dropped, -, whole, kept⟩ := (scanner_loses_nothing source).2.2
  rw [whole closed, List.append_nil] at kept
  rw [kept]
  exact ⟨closed, by cbv⟩

end Token

end TinyLisp
