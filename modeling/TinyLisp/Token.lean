/-!
Tokens: a source text cut into parentheses and atoms.

The cut is one pass over the characters that carries the atom in progress. A parenthesis is always
a token of its own. A space, a carriage return or a line feed ends an atom, except in an atom that
starts with a quote, which goes on to its next quote without a backslash. An opening parenthesis
does not end the atom in progress, which goes on behind it; a closing one ends any atom. An atom
that the text does not end is dropped.
-/

set_option autoImplicit false

namespace TinyLisp

inductive Token where
  | openParen
  | closeParen
  | atom (spelling : String)
  deriving DecidableEq, Inhabited, Repr

namespace Token

def ofString (spelling : String) : Token :=
  if spelling = "(" then .openParen
  else if spelling = ")" then .closeParen
  else .atom spelling

def spelling : Token → String
  | .openParen => "("
  | .closeParen => ")"
  | .atom spelling => spelling

@[simp] theorem spelling_ofString (text : String) : (ofString text).spelling = text := by
  unfold ofString
  split
  · simp [spelling, *]
  · split <;> simp [spelling, *]

def isSeparator (char : Char) : Bool :=
  char == ' ' || char == '\r' || char == '\n'

end Token

/-- The atom in progress: none, a bare one, or one that started with a quote. The latter knows
whether its last character is a backslash that escapes the next. -/
inductive Pending where
  | none
  | bare (spelling : String)
  | quoted (spelling : String) (escaped : Bool)
  deriving DecidableEq, Inhabited, Repr

namespace Pending

/-- The atom in progress, as the token it becomes when it ends here. -/
def flush : Pending → List Token
  | .none => []
  | .bare spelling => [.atom spelling]
  | .quoted spelling _ => [.atom spelling]

def start (char : Char) : Pending :=
  if char = '"' then .quoted "\"" false else .bare (String.singleton char)

/-- A quoted atom and its next character: the tokens that this completes and the atom then in
progress. -/
def continueQuoted (spelling : String) (escaped : Bool) (char : Char) : List Token × Pending :=
  if escaped then
    ([], .quoted (spelling.push char) false)
  else if char = '\\' then
    ([], .quoted (spelling.push char) true)
  else if char = '"' then
    ([.atom (spelling.push char)], .none)
  else
    ([], .quoted (spelling.push char) false)

/-- One character of the source: the tokens that it completes and the atom then in progress. -/
def advance (pending : Pending) (char : Char) : List Token × Pending :=
  if char = '(' then
    ([.openParen], pending)
  else if char = ')' then
    (pending.flush ++ [.closeParen], .none)
  else
    match pending with
    | .none => ([], if Token.isSeparator char then .none else start char)
    | .bare spelling =>
        if Token.isSeparator char then ([.atom spelling], .none)
        else ([], .bare (spelling.push char))
    | .quoted spelling escaped => continueQuoted spelling escaped char

end Pending

namespace Token

/-- The tokens that a run of characters completes after an atom in progress, and the atom in
progress at its end. -/
def scan : Pending → List Char → List Token × Pending
  | pending, [] => ([], pending)
  | pending, char :: rest =>
      let (completed, next) := pending.advance char
      let (later, last) := scan next rest
      (completed ++ later, last)

def tokenize (source : String) : List Token :=
  (scan .none source.toList).1

theorem scan_append (pending : Pending) (front back : List Char) :
    scan pending (front ++ back) =
      ((scan pending front).1 ++ (scan (scan pending front).2 back).1,
        (scan (scan pending front).2 back).2) := by
  induction front generalizing pending with
  | nil => simp [scan]
  | cons char rest ih => simp [scan, ih, List.append_assoc]

end Token

end TinyLisp
