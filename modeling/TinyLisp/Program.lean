import TinyLisp.Evaluation
import TinyLisp.Value.Reader

/-!
Running a source text: all of it is read first, and then its expressions are evaluated in order.
-/

set_option autoImplicit false

namespace TinyLisp

/-- Why a source text has no result. -/
inductive RunError where
  | reading (error : ReadError)
  | evaluation (error : EvalError)

namespace RunError

def message : RunError → String
  | .reading error => "ParseError: " ++ error.message
  | .evaluation error => "EvaluationError: " ++ error.message

end RunError

/-- Run a source text in a scope, which is also where it looks up its names. The result is the
value of its last expression, or nil if it has none. A failure keeps what was written before it,
and a text that cannot be read writes nothing. -/
def run (config : Config) (scope : Scope) (source : String) (world : World) :
    Except RunError Value × World :=
  match Value.readAll (Token.tokenize source) with
  | .error error => (.error (.reading error), world)
  | .ok expressions =>
      let (outcome, after) :=
        (Evaluation.lastOf (evaluate config scope 0 scope) expressions).outcome world
      (outcome.mapError .evaluation, after)

end TinyLisp
