import TinyLisp.Text.Inspected

/-!
Why a sequence of tokens cannot be read.
-/

set_option autoImplicit false

namespace TinyLisp

inductive ReadError where
  | emptyInput
  | malformedNumber (spelling : String)
  | malformedText (spelling : String)
  | invalidSymbol (spelling : String)
  | unexpectedClose
  | unclosedList
  | tooDeeplyNested (limit : Nat)
  deriving DecidableEq, Repr

namespace ReadError

def message : ReadError → String
  | .emptyInput => "no tokens to parse"
  | .malformedNumber spelling => "malformed number literal: " ++ spelling
  | .malformedText spelling => "malformed string literal: " ++ spelling
  | .invalidSymbol spelling => "invalid symbol: " ++ Text.inspect spelling
  | .unexpectedClose => "unexpected ')'"
  | .unclosedList => "list is missing its closing ')'"
  | .tooDeeplyNested limit =>
      "expression too deeply nested (max depth: " ++ Nat.repr limit ++ ")"

end ReadError

end TinyLisp
