import TinyLisp.Numeral.Printer
import TinyLisp.Text.Quoted
import TinyLisp.Value.Basic

/-!
The written form of values. Data are written as they are read; a function is written as the form
that makes it.
-/

set_option autoImplicit false

namespace TinyLisp

namespace Value

mutual

def chars : Value → List Char
  | .symbol name => name.toList
  | .text contents => Text.quote contents.toList
  | .number value => Numeral.chars value
  | .list [] => ['(', ')']
  | .list (first :: rest) => '(' :: (chars first ++ (spacedChars rest ++ [')']))
  | .function params body =>
      "(lambda (".toList ++
        ([' '].intercalate (params.map String.toList) ++ (')' :: (spacedChars body ++ [')'])))

/-- The written forms of several values, each after a space. -/
def spacedChars : List Value → List Char
  | [] => []
  | first :: rest => ' ' :: (chars first ++ spacedChars rest)

end

def render (value : Value) : String :=
  String.ofList value.chars

end Value

end TinyLisp
