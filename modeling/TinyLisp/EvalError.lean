import TinyLisp.Builtin
import TinyLisp.Value.Printer

/-!
Why an evaluation fails.
-/

set_option autoImplicit false

namespace TinyLisp

/-- What is wrong with the arguments of a built-in operation. -/
inductive Malformation where
  | wrongCount (expected given : Nat)
  | tooFew (least given : Nat)
  | notOneArgument
  | notSymbolAndValue
  | nonSymbolName (found : Value)
  | missingParameters
  | missingBody
  | parametersNotList (found : Value)
  | duplicateParameter (name : String)
  | nonSymbolParameter (found : Value)
  | missingFunction

namespace Malformation

def reason : Malformation → String
  | .wrongCount expected given =>
      "expected " ++ Nat.repr expected ++ " arguments, got " ++ Nat.repr given
  | .tooFew least given =>
      "expected at least " ++ Nat.repr least ++ " arguments, got " ++ Nat.repr given
  | .notOneArgument => "expected exactly one argument"
  | .notSymbolAndValue => "expected a symbol and a value"
  | .nonSymbolName found => "cannot define non-symbol " ++ found.render
  | .missingParameters => "missing parameter list"
  | .missingBody => "missing body"
  | .parametersNotList found => "parameter list must be a list, found " ++ found.render
  | .duplicateParameter name => "duplicate parameter name: " ++ name
  | .nonSymbolParameter found => "parameters must be symbols, found " ++ found.kind
  | .missingFunction => "missing function"

end Malformation

inductive EvalError where
  | unboundSymbol (name : String)
  | uncallableHead (found : Value)
  | uncallableValue (found : Value)
  | arityMismatch (expected given : Nat)
  | typeMismatch (operator : String) (found : Value)
  | malformedForm (form : String) (malformation : Malformation)
  | stackExhausted (maxDepth : Nat)

namespace EvalError

def message : EvalError → String
  | .unboundSymbol name => "symbol has no value: " ++ name
  | .uncallableHead found => "list headed by uncallable " ++ found.render
  | .uncallableValue found => "calling uncallable: " ++ found.render
  | .arityMismatch expected given =>
      "arg count mismatch: expected " ++ Nat.repr expected ++ ", got " ++ Nat.repr given
  | .typeMismatch operator found => operator ++ " requires numbers, found " ++ found.render
  | .malformedForm form malformation => "malformed " ++ form ++ ": " ++ malformation.reason
  | .stackExhausted maxDepth =>
      "evaluation depth limit exceeded (max: " ++ Nat.repr maxDepth ++ ")"

end EvalError

/-- Refuse a number of arguments that an operation does not take. -/
def Arity.validate (form : String) (given : Nat) : Arity → Except EvalError Unit
  | .exactly count =>
      if given = count then .ok () else .error (.malformedForm form (.wrongCount count given))
  | .atLeast count =>
      if count ≤ given then .ok () else .error (.malformedForm form (.tooFew count given))
  | .any => .ok ()

end TinyLisp
