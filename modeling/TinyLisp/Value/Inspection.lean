import TinyLisp.Numeral.Printer
import TinyLisp.Text.Inspected
import TinyLisp.Value.Basic

/-!
The inspected form of values, which names the kind of every node.
-/

set_option autoImplicit false

namespace TinyLisp

namespace Value

mutual

/-- A value with its kind, and its parts inspected in turn. -/
def inspect : Value → String
  | .symbol name => "Symbol(" ++ name ++ ")"
  | .text contents => "Str(" ++ Text.inspect contents ++ ")"
  | .number value => "Number(" ++ Numeral.ofFloat value ++ ")"
  | .list elements => "List(" ++ ", ".intercalate (inspectAll elements) ++ ")"
  | .function params body =>
      "Function(params=[" ++ ", ".intercalate (params.map Text.inspect) ++
        "], body=[" ++ ", ".intercalate (inspectAll body) ++ "])"

def inspectAll : List Value → List String
  | [] => []
  | first :: rest => inspect first :: inspectAll rest

end

end Value

end TinyLisp
