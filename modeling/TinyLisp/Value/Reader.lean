import TinyLisp.Numeral.Reader
import TinyLisp.ReadError
import TinyLisp.Text.Quoted
import TinyLisp.Token
import TinyLisp.Value.Printer

/-!
Reading values from tokens, by recursive descent.

The value at the start of some tokens is read together with the number of tokens that it spans, so
that what reads a list knows where the next element starts. An atom is text if it starts with a
quote, else a number if it is a numeral, else a symbol, and each of these refuses what looks like
the one before it.
-/

set_option autoImplicit false

namespace TinyLisp

def maxNesting : Nat := 128

def isForbiddenInSymbol (char : Char) : Bool :=
  char == '"' || char == '(' || char == ')' || Token.isSeparator char

def isSymbolName (name : List Char) : Bool :=
  !name.isEmpty && !name.any isForbiddenInSymbol

def readText (spelling : String) : Except ReadError Value :=
  match Text.unquote? spelling.toList with
  | some contents => .ok (.text (String.ofList contents))
  | none => .error (.malformedText spelling)

def readAtom (spelling : String) : Except ReadError Value :=
  let chars := spelling.toList
  if chars.head? = some '"' then
    readText spelling
  else
    match Numeral.read? chars with
    | some value => .ok (.number value)
    | none =>
        if Numeral.looksNumeric chars then .error (.malformedNumber spelling)
        else if chars.contains '"' then .error (.malformedText spelling)
        else if isSymbolName chars then .ok (.symbol spelling)
        else .error (.invalidSymbol spelling)

namespace Value

mutual

/-- The value at the start of the tokens, inside so many lists, with the number of tokens that it
spans. The limit on nesting is seen before the token itself. -/
def readAt (depth : Nat) : List Token → Except ReadError (Value × Nat)
  | [] => .error .emptyInput
  | token :: rest =>
      if maxNesting ≤ depth then .error (.tooDeeplyNested maxNesting)
      else
        match token with
        | .openParen => readElements depth [] 1 rest
        | .closeParen => .error .unexpectedClose
        | .atom spelling => (readAtom spelling).map fun value => (value, 1)
termination_by tokens => 2 * tokens.length

/-- The list whose opening parenthesis and some of whose elements, the last one first, stand on so
many tokens in front of these. Only a closing parenthesis is free of the limit on nesting. -/
def readElements (depth : Nat) (earlier : List Value) (used : Nat) :
    List Token → Except ReadError (Value × Nat)
  | [] => .error .unclosedList
  | .closeParen :: _ => .ok (.list earlier.reverse, used + 1)
  | token :: rest =>
      match readAt (depth + 1) (token :: rest) with
      | .error error => .error error
      | .ok (element, spanned) =>
          -- What has been read spans at least its first token.
          readElements depth (element :: earlier) (used + spanned) (rest.drop (spanned - 1))
termination_by tokens => 2 * tokens.length + 1

end

def readFirst (tokens : List Token) : Except ReadError (Value × List Token) :=
  (readAt 0 tokens).map fun (value, spanned) => (value, tokens.drop spanned)

/-- The values that the tokens spell, behind others that have been read, the last one first. -/
def readOnward (earlier : List Value) : List Token → Except ReadError (List Value)
  | [] => .ok earlier.reverse
  | token :: rest =>
      match readAt 0 (token :: rest) with
      | .error error => .error error
      | .ok (value, spanned) => readOnward (value :: earlier) (rest.drop (spanned - 1))
termination_by tokens => tokens.length

def readAll (tokens : List Token) : Except ReadError (List Value) :=
  readOnward [] tokens

/-- Whether the written form of a value, ended by a line feed, is read as an equal value. -/
def readsBack (value : Value) : Bool :=
  match readFirst (Token.tokenize (value.render ++ "\n")) with
  | .ok (again, _) => again == value
  | .error _ => false

end Value

end TinyLisp
