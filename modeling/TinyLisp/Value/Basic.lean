/-!
Values: the one kind of tree that programs and their results are made of.
-/

set_option autoImplicit false

namespace TinyLisp

/-- A symbol, a piece of text, a number, a list, or a function. The empty list is nil. A function
holds its parameter names and its body as written, and no scope. -/
inductive Value where
  | symbol (name : String)
  | text (contents : String)
  | number (value : Float)
  | list (elements : List Value)
  | function (params : List String) (body : List Value)
  deriving Inhabited

namespace Value

def nil : Value := .list []

def isNil : Value → Bool
  | .list [] => true
  | _ => false

def isFunction : Value → Bool
  | .function _ _ => true
  | _ => false

/-- The word for a value's kind in diagnostics. -/
def kind : Value → String
  | .symbol _ => "symbol"
  | .text _ => "string"
  | .number _ => "number"
  | .list [] => "nil"
  | .list (_ :: _) => "list"
  | .function _ _ => "function"

mutual

/-- Equality of values: equal shape and equal leaves, where numbers are compared as numbers. So no
NaN equals itself and the two zeros are equal. -/
def equal : Value → Value → Bool
  | .symbol left, .symbol right => left == right
  | .text left, .text right => left == right
  | .number left, .number right => left == right
  | .list left, .list right => equalAll left right
  | .function leftParams leftBody, .function rightParams rightBody =>
      leftParams == rightParams && equalAll leftBody rightBody
  | _, _ => false

/-- Equality of two sequences of values, element by element. -/
def equalAll : List Value → List Value → Bool
  | [], [] => true
  | left :: lefts, right :: rights => equal left right && equalAll lefts rights
  | _, _ => false

end

instance : BEq Value where
  beq := equal

end Value

end TinyLisp
