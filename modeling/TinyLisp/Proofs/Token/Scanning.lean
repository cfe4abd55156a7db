import TinyLisp.Proofs.Text.Literals
import TinyLisp.Proofs.Value.Datum

/-!
What the scanner makes of atoms.

Each character opens or closes a list, is skipped, or starts, extends or ends an atom. So a bare
spelling is one token where a separator or a closing parenthesis follows it, and a literal without
parentheses is one token whatever follows. In the other direction, no token that a source text is
cut into has a parenthesis inside an atom.
-/

set_option autoImplicit false

namespace TinyLisp

namespace Token

/-- The result of a scan with some tokens in front of it. -/
def emit (tokens : List Token) (scanned : List Token × Pending) : List Token × Pending :=
  (tokens ++ scanned.1, scanned.2)

theorem emit_append (front back : List Token) (scanned : List Token × Pending) :
    emit (front ++ back) scanned = emit front (emit back scanned) := by
  rw [emit, emit, emit, List.append_assoc]

theorem scan_cons (pending : Pending) (char : Char) (rest : List Char) :
    scan pending (char :: rest) =
      emit (pending.advance char).1 (scan (pending.advance char).2 rest) :=
  rfl

theorem paren_free_of_forall {chars : List Char}
    (noParens : ∀ char ∈ chars, char ≠ '(' ∧ char ≠ ')') : ParenFree chars := by
  constructor
  · intro isOpen
    exact (noParens '(' isOpen).1 rfl
  · intro isClose
    exact (noParens ')' isClose).2 rfl

theorem separator_iff {char : Char} : isSeparator char = true ↔ char ∈ [' ', '\r', '\n'] := by
  simp [isSeparator, or_assoc]

theorem not_separator_iff {char : Char} :
    isSeparator char = false ↔ char ∉ [' ', '\r', '\n'] := by
  rw [← separator_iff, Bool.not_eq_true]

/-- A character that ends the atom in front of it. -/
def IsEnder (char : Char) : Prop :=
  char = ')' ∨ char ∈ [' ', '\r', '\n']

/-- A character that a bare atom takes in. -/
def IsOrdinary (char : Char) : Prop :=
  char ≠ '(' ∧ char ≠ ')' ∧ char ∉ [' ', '\r', '\n']

/-- The spelling of a bare atom. Quotes may stand anywhere in it but in front. -/
structure IsBare (spelling : List Char) : Prop where
  nonempty : spelling ≠ []
  unquoted : spelling.head? ≠ some '"'
  ordinary : ∀ char ∈ spelling, IsOrdinary char

/-- A nonempty spelling that no character of it cuts. -/
def IsWord (spelling : List Char) : Prop :=
  spelling ≠ [] ∧ ∀ char ∈ spelling, isForbiddenInSymbol char = false

theorem separator_ne_paren {char : Char} (separator : char ∈ [' ', '\r', '\n']) :
    char ≠ '(' ∧ char ≠ ')' := by
  constructor
  · intro isOpen
    rw [isOpen] at separator
    contradiction
  · intro isClose
    rw [isClose] at separator
    contradiction

theorem push_of_list (front : List Char) (char : Char) :
    (String.ofList front).push char = String.ofList (front ++ [char]) := by
  apply String.toList_injective
  rw [String.toList_push, String.toList_ofList, String.toList_ofList]

theorem allowed_char {char : Char} (allowed : isForbiddenInSymbol char = false) :
    char ≠ '"' ∧ IsOrdinary char := by
  simpa [isForbiddenInSymbol, IsOrdinary, isSeparator, and_assoc] using allowed

theorem IsWord.is_bare {word : List Char} (isWord : IsWord word) : IsBare word where
  nonempty := isWord.1
  unquoted := by
    intro quoted
    exact (allowed_char (isWord.2 _ (List.mem_of_head? quoted))).1 rfl
  ordinary := by
    intro char member
    exact (allowed_char (isWord.2 char member)).2

end Token

namespace Pending

/-- What a character does to the atom in progress: the tokens that it completes and the atom then in
progress. -/
inductive Advances : Pending → Char → List Token → Pending → Prop
  | opens (pending : Pending) : Advances pending '(' [.openParen] pending
  | closes (pending : Pending) : Advances pending ')' (pending.flush ++ [.closeParen]) .none
  | skips {char : Char} (separator : char ∈ [' ', '\r', '\n']) :
      Advances .none char [] .none
  | startsBare {char : Char} (ordinary : Token.IsOrdinary char) (notQuote : char ≠ '"') :
      Advances .none char [] (.bare (String.singleton char))
  | startsQuoted : Advances .none '"' [] (.quoted "\"" false)
  | endsBare (spelling : String) {char : Char} (separator : char ∈ [' ', '\r', '\n']) :
      Advances (.bare spelling) char [.atom spelling] .none
  | extendsBare (spelling : String) {char : Char} (ordinary : Token.IsOrdinary char) :
      Advances (.bare spelling) char [] (.bare (spelling.push char))
  | endsQuoted (spelling : String) :
      Advances (.quoted spelling false) '"' [.atom (spelling.push '"')] .none
  | extendsQuoted (spelling : String) {escaped : Bool} {char : Char} (notOpen : char ≠ '(')
      (notClose : char ≠ ')') (goesOn : char = '"' → escaped = true) :
      Advances (.quoted spelling escaped) char []
        (.quoted (spelling.push char) (!escaped && decide (char = '\\')))

theorem continue_quoted (spelling : String) {escaped : Bool} {char : Char}
    (goesOn : char = '"' → escaped = true) :
    continueQuoted spelling escaped char =
      ([], .quoted (spelling.push char) (!escaped && decide (char = '\\'))) := by
  unfold continueQuoted
  cases escaped with
  | true => rfl
  | false =>
      have notQuote : char ≠ '"' := fun quote => Bool.false_ne_true (goesOn quote)
      by_cases backslash : char = '\\' <;> simp [backslash, notQuote]

theorem advances (pending : Pending) (char : Char) :
    Advances pending char (pending.advance char).1 (pending.advance char).2 := by
  unfold advance
  by_cases isOpen : char = '('
  · rw [if_pos isOpen, isOpen]
    exact .opens pending
  by_cases isClose : char = ')'
  · rw [if_neg isOpen, if_pos isClose, isClose]
    exact .closes pending
  rw [if_neg isOpen, if_neg isClose]
  cases pending with
  | none =>
      dsimp only
      by_cases separator : Token.isSeparator char = true
      · rw [if_pos separator]
        exact .skips (Token.separator_iff.mp separator)
      · rw [if_neg separator, start]
        by_cases quote : char = '"'
        · rw [if_pos quote, quote]
          exact .startsQuoted
        · rw [if_neg quote]
          exact .startsBare ⟨isOpen, isClose, mt Token.separator_iff.mpr separator⟩ quote
  | bare spelling =>
      dsimp only
      by_cases separator : Token.isSeparator char = true
      · rw [if_pos separator]
        exact .endsBare spelling (Token.separator_iff.mp separator)
      · rw [if_neg separator]
        exact .extendsBare spelling ⟨isOpen, isClose, mt Token.separator_iff.mpr separator⟩
  | quoted spelling escaped =>
      dsimp only
      by_cases goesOn : char = '"' → escaped = true
      · rw [continue_quoted spelling goesOn]
        exact .extendsQuoted spelling isOpen isClose goesOn
      · obtain ⟨rfl, unescaped⟩ := Classical.not_imp.mp goesOn
        rw [Bool.not_eq_true] at unescaped
        subst unescaped
        exact .endsQuoted spelling

theorem advance_of_advances {pending next : Pending} {char : Char} {completed : List Token}
    (advanced : Advances pending char completed next) :
    pending.advance char = (completed, next) := by
  cases advanced with
  | opens => rfl
  | closes => rfl
  | skips separator =>
      obtain ⟨notOpen, notClose⟩ := Token.separator_ne_paren separator
      simp [advance, notOpen, notClose, Token.separator_iff.mpr separator]
  | startsBare ordinary notQuote =>
      obtain ⟨notOpen, notClose, notSeparator⟩ := ordinary
      simp [advance, notOpen, notClose, Token.not_separator_iff.mpr notSeparator, start, notQuote]
  | startsQuoted => rfl
  | endsBare spelling separator =>
      obtain ⟨notOpen, notClose⟩ := Token.separator_ne_paren separator
      simp [advance, notOpen, notClose, Token.separator_iff.mpr separator]
  | extendsBare spelling ordinary =>
      obtain ⟨notOpen, notClose, notSeparator⟩ := ordinary
      simp [advance, notOpen, notClose, Token.not_separator_iff.mpr notSeparator]
  | endsQuoted spelling => rfl
  | extendsQuoted spelling notOpen notClose goesOn =>
      simp [advance, notOpen, notClose, continue_quoted spelling goesOn]

/-- The atom in progress behind an opening quote and contents that do not close it. -/
def literal (contents : List Char) : Pending :=
  .quoted (String.ofList ('"' :: contents)) (decide (Text.EscapesNext contents))

theorem literal_push (contents : List Char) (char : Char) :
    .quoted ((String.ofList ('"' :: contents)).push char)
        (!decide (Text.EscapesNext contents) && decide (char = '\\')) =
      literal (contents ++ [char]) := by
  rw [literal, Token.push_of_list, List.cons_append]
  simp [Text.escapes_next_concat_iff, Bool.and_comm]

/-- Contents that stay unclosed with one more character stay the atom in progress with it. -/
theorem literal_advances {contents : List Char} {char : Char} (notOpen : char ≠ '(')
    (notClose : char ≠ ')') (goesOn : char = '"' → Text.EscapesNext contents) :
    Advances (literal contents) char [] (literal (contents ++ [char])) := by
  rw [← literal_push]
  exact .extendsQuoted _ notOpen notClose fun quote => decide_eq_true (goesOn quote)

theorem literal_ends {contents : List Char} (unescaped : ¬Text.EscapesNext contents) :
    Advances (literal contents) '"' [.atom (String.ofList ('"' :: (contents ++ ['"'])))] .none := by
  rw [literal, decide_eq_false unescaped, ← List.cons_append, ← Token.push_of_list]
  exact .endsQuoted _

end Pending

namespace Token

theorem scan_of_advances {pending next : Pending} {char : Char} {completed : List Token}
    (advanced : pending.Advances char completed next) (rest : List Char) :
    scan pending (char :: rest) = emit completed (scan next rest) := by
  rw [scan_cons, Pending.advance_of_advances advanced]

theorem scan_bare_ender (spelling : String) {ender : Char} (ends : IsEnder ender)
    (rest : List Char) :
    scan (.bare spelling) (ender :: rest) =
      emit [.atom spelling] (scan .none (ender :: rest)) := by
  rcases ends with rfl | separator
  · rfl
  · rw [scan_of_advances (.endsBare spelling separator), scan_of_advances (.skips separator)]
    rfl

theorem scan_bare (front word : List Char) (ender : Char) (rest : List Char)
    (ordinary : ∀ char ∈ word, IsOrdinary char) (ends : IsEnder ender) :
    scan (.bare (String.ofList front)) (word ++ ender :: rest) =
      emit [.atom (String.ofList (front ++ word))] (scan .none (ender :: rest)) := by
  induction word generalizing front with
  | nil =>
      rw [List.nil_append, List.append_nil]
      exact scan_bare_ender _ ends rest
  | cons char word ih =>
      obtain ⟨charOrdinary, wordOrdinary⟩ := List.forall_mem_cons.mp ordinary
      rw [List.cons_append, scan_of_advances (.extendsBare _ charOrdinary), push_of_list,
        ih (front ++ [char]) wordOrdinary, List.append_assoc]
      rfl

/-- A bare spelling is one token where something follows that ends it. -/
theorem scan_bare_atom {spelling : List Char} (isBare : IsBare spelling) {ender : Char}
    (ends : IsEnder ender) (rest : List Char) :
    scan .none (spelling ++ ender :: rest) =
      emit [.atom (String.ofList spelling)] (scan .none (ender :: rest)) := by
  obtain ⟨nonempty, unquoted, ordinary⟩ := isBare
  obtain ⟨char, word, rfl⟩ := List.exists_cons_of_ne_nil nonempty
  obtain ⟨charOrdinary, wordOrdinary⟩ := List.forall_mem_cons.mp ordinary
  have notQuote : char ≠ '"' := by
    intro quote
    exact unquoted (by rw [quote, List.head?_cons])
  rw [List.cons_append, scan_of_advances (.startsBare charOrdinary notQuote),
    String.singleton_eq_ofList, scan_bare [char] word ender rest wordOrdinary ends]
  rfl

theorem scan_word {word : List Char} (isWord : IsWord word) {ender : Char} (ends : IsEnder ender)
    (rest : List Char) :
    scan .none (word ++ ender :: rest) =
      emit [.atom (String.ofList word)] (scan .none (ender :: rest)) :=
  scan_bare_atom isWord.is_bare ends rest

/-- The rest of a literal is scanned to its closing quote, wherever in its contents the scan is. -/
theorem scan_within_literal (front back rest : List Char) (free : ParenFree back)
    (whole : Text.IsContents (front ++ back)) :
    scan (.literal front) (back ++ '"' :: rest) =
      emit [.atom (String.ofList ('"' :: (front ++ back ++ ['"'])))] (scan .none rest) := by
  induction back generalizing front with
  | nil =>
      rw [List.append_nil] at whole
      rw [List.nil_append, List.append_nil]
      exact scan_of_advances (Pending.literal_ends whole.unescaped) rest
  | cons char back ih =>
      have notOpen : char ≠ '(' := by
        intro isOpen
        exact free.1 (by simp [isOpen])
      have notClose : char ≠ ')' := by
        intro isClose
        exact free.2 (by simp [isClose])
      have goesOn : char = '"' → Text.EscapesNext front := by
        intro quote
        exact whole.unclosed front back (by rw [quote])
      have backFree : ParenFree back :=
        free.of_subset fun _ member => List.mem_cons_of_mem _ member
      rw [List.append_cons] at whole
      rw [List.cons_append, scan_of_advances (Pending.literal_advances notOpen notClose goesOn),
        ih (front ++ [char]) backFree whole, ← List.append_cons]
      rfl

/-- A literal ends by itself, so that anything may follow it. -/
theorem scan_literal {spelling : List Char} (isLiteral : Text.IsLiteral spelling)
    (free : ParenFree spelling) (rest : List Char) :
    scan .none (spelling ++ rest) =
      emit [.atom (String.ofList spelling)] (scan .none rest) := by
  obtain ⟨_, rfl, contents, rfl, whole⟩ := isLiteral
  have contentsFree : ParenFree contents := free.of_subset fun _ member => by simp [member]
  have scanned := scan_within_literal [] contents rest contentsFree whole
  rw [List.cons_append, List.append_assoc, List.singleton_append,
    scan_of_advances .startsQuoted]
  exact scanned

theorem scan_quote {contents : List Char} (free : ParenFree contents) (rest : List Char) :
    scan .none (Text.quote contents ++ rest) =
      emit [.atom (String.ofList (Text.quote contents))] (scan .none rest) := by
  apply scan_literal (Text.is_literal_quote contents)
  constructor
  · intro isOpen
    exact free.1 (by simpa using Text.mem_of_mem_quote isOpen)
  · intro isClose
    exact free.2 (by simpa using Text.mem_of_mem_quote isClose)

def ParenFreeAtom : Token → Prop
  | .atom spelling => ParenFree spelling.toList
  | _ => True

/-- An atom that is made of allowed characters. -/
def Only (Allowed : Char → Prop) : Token → Prop
  | .atom spelling => ∀ char ∈ spelling.toList, Allowed char
  | _ => True

end Token

namespace Pending

def Only (Allowed : Char → Prop) : Pending → Prop
  | .none => True
  | .bare spelling => ∀ char ∈ spelling.toList, Allowed char
  | .quoted spelling _ => ∀ char ∈ spelling.toList, Allowed char

variable {Allowed : Char → Prop}

theorem only_push {spelling : String} {char : Char}
    (only : ∀ earlier ∈ spelling.toList, Allowed earlier) (allowed : Allowed char) :
    ∀ each ∈ (spelling.push char).toList, Allowed each := by
  rw [String.toList_push]
  exact List.forall_mem_append.mpr ⟨only, List.forall_mem_singleton.mpr allowed⟩

theorem only_flush {pending : Pending} (only : pending.Only Allowed) :
    ∀ token ∈ pending.flush, token.Only Allowed := by
  intro token member
  cases pending with
  | none => contradiction
  | bare spelling =>
      rw [List.mem_singleton.mp member]
      exact only
  | quoted spelling escaped =>
      rw [List.mem_singleton.mp member]
      exact only

/-- An atom takes in no other characters than those it is given, and no parentheses. -/
theorem only_advance {pending next : Pending} {char : Char} {completed : List Token}
    (advanced : Advances pending char completed next) (only : pending.Only Allowed)
    (allowed : char ≠ '(' → char ≠ ')' → Allowed char) :
    (∀ token ∈ completed, token.Only Allowed) ∧ next.Only Allowed := by
  have empty : ∀ each ∈ "".toList, Allowed each := List.forall_mem_nil _
  cases advanced with
  | opens => exact ⟨List.forall_mem_singleton.mpr trivial, only⟩
  | closes =>
      exact ⟨List.forall_mem_append.mpr
        ⟨only_flush only, List.forall_mem_singleton.mpr trivial⟩, trivial⟩
  | skips => exact ⟨List.forall_mem_nil _, trivial⟩
  | startsBare ordinary =>
      exact ⟨List.forall_mem_nil _, only_push empty (allowed ordinary.1 ordinary.2.1)⟩
  | startsQuoted =>
      have quoteAllowed := allowed (by decide) (by decide)
      exact ⟨List.forall_mem_nil _, by simpa [Only] using quoteAllowed⟩
  | endsBare => exact ⟨List.forall_mem_singleton.mpr only, trivial⟩
  | extendsBare spelling ordinary =>
      exact ⟨List.forall_mem_nil _, only_push only (allowed ordinary.1 ordinary.2.1)⟩
  | endsQuoted =>
      have quoteAllowed := allowed (by decide) (by decide)
      exact ⟨List.forall_mem_singleton.mpr (only_push only quoteAllowed), trivial⟩
  | extendsQuoted spelling notOpen notClose =>
      exact ⟨List.forall_mem_nil _, only_push only (allowed notOpen notClose)⟩

/-- A line feed completes at most the atom in progress, and is itself no part of it. -/
theorem only_at_line_feed {pending : Pending} (only : pending.Only Allowed) :
    ∀ token ∈ (pending.advance '\n').1, token.Only Allowed := by
  cases pending with
  | none => exact List.forall_mem_nil _
  | bare spelling => exact List.forall_mem_singleton.mpr only
  | quoted spelling escaped => cases escaped <;> exact List.forall_mem_nil _

end Pending

namespace Token

variable {Allowed : Char → Prop}

theorem only_scan {pending : Pending} (only : pending.Only Allowed) {source : List Char}
    (allowed : ∀ char ∈ source, char ≠ '(' → char ≠ ')' → Allowed char) :
    (∀ token ∈ (scan pending source).1, token.Only Allowed) ∧
      (scan pending source).2.Only Allowed := by
  induction source generalizing pending with
  | nil => exact ⟨List.forall_mem_nil _, only⟩
  | cons char source ih =>
      obtain ⟨charAllowed, restAllowed⟩ := List.forall_mem_cons.mp allowed
      obtain ⟨completed, next⟩ := Pending.only_advance (pending.advances char) only charAllowed
      obtain ⟨later, last⟩ := ih next restAllowed
      rw [scan_cons]
      exact ⟨List.forall_mem_append.mpr ⟨completed, later⟩, last⟩

/-- No parenthesis gets into an atom. -/
theorem no_parens_scan (source : List Char) :
    (∀ token ∈ (scan .none source).1, token.Only fun char => char ≠ '(' ∧ char ≠ ')') ∧
      (scan .none source).2.Only fun char => char ≠ '(' ∧ char ≠ ')' := by
  have nothing : Pending.none.Only fun char => char ≠ '(' ∧ char ≠ ')' := trivial
  exact only_scan nothing fun _ _ => And.intro

theorem paren_free_tokenize (source : String) : ∀ token ∈ tokenize source, token.ParenFreeAtom := by
  intro token member
  have only := (no_parens_scan source.toList).1 token member
  cases token with
  | atom spelling => exact paren_free_of_forall only
  | _ => trivial

/-- The line feed that ends a text is in no atom of it. -/
theorem only_tokenize_line {text : String} (allowed : ∀ char ∈ text.toList, Allowed char) :
    ∀ token ∈ tokenize (text ++ "\n"), token.Only Allowed := by
  have nothing : Pending.none.Only Allowed := trivial
  obtain ⟨inText, pendingOnly⟩ :=
    only_scan nothing fun char member _ _ => allowed char member
  have ended : tokenize (text ++ "\n") =
      (scan .none text.toList).1 ++ ((scan .none text.toList).2.advance '\n').1 := by
    rw [tokenize, String.toList_append, scan_append]
    exact congrArg _ (List.append_nil _)
  rw [ended]
  exact List.forall_mem_append.mpr ⟨inText, Pending.only_at_line_feed pendingOnly⟩

end Token

end TinyLisp
