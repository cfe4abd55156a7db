import TinyLisp.Scope

/-!
Evaluation.

Everything below the outermost expression is evaluated at a greater depth, and nothing is evaluated
from the depth limit on. What one level does is therefore defined in terms of the two evaluators
that it goes on with, one level and two levels deeper, and the levels are put together at the end.
-/

set_option autoImplicit false

namespace TinyLisp

/-- What a function's parameters are bound to: the arguments as written, or their values in the
caller's scope. -/
inductive Passing where
  | unevaluated
  | evaluated
  deriving DecidableEq, Repr

structure Config where
  maxDepth : Nat := 256
  passing : Passing := .unevaluated
  deriving DecidableEq, Repr

/-- A computation over the world. What it wrote before a failure stays written. -/
abbrev Evaluation (Result : Type) := ExceptT EvalError (StateM World) Result

abbrev Evaluator := Scope → Value → Evaluation Value

namespace Evaluation

def outcome {Result : Type} (evaluation : Evaluation Result) (world : World) :
    Except EvalError Result × World :=
  StateT.run (ExceptT.run evaluation) world

def lookUp (scope : Scope) (name : String) : Evaluation Value := do
  ofExcept (scope.get (← get) name)

def define (scope : Scope) (name : String) (value : Value) : Evaluation Value := do
  modify fun world => scope.setGlobal world name value
  return value

/-- The values of several expressions in order; the last one is the result. -/
def lastOf (evaluate : Value → Evaluation Value) (expressions : List Value) : Evaluation Value :=
  expressions.foldlM (fun _ expression => evaluate expression) Value.nil

def number (operator : Operator) (evaluate : Value → Evaluation Value) (argument : Value) :
    Evaluation Float := do
  match ← evaluate argument with
  | .number value => return value
  | found => throw (.typeMismatch operator.name found)

def arithmetic (operator : Operator) (evaluate : Value → Evaluation Value)
    (arguments : List Value) : Evaluation Value := do
  return .number (operator.fold (← arguments.mapM (number operator evaluate)))

def passed (passing : Passing) (evaluate : Value → Evaluation Value) (arguments : List Value) :
    Evaluation (List Value) :=
  match passing with
  | .unevaluated => return arguments
  | .evaluated => arguments.mapM evaluate

/-- Call a function from a scope. Its body runs in a frame of its own over the caller's scope, so it
sees the caller's bindings and not those of the place where the function was made. -/
def call (passing : Passing) (inner : Evaluator) (scope : Scope) (callee : Value)
    (arguments : List Value) : Evaluation Value :=
  match callee with
  | .function params body =>
      if params.length = arguments.length then do
        let values ← passed passing (inner scope) arguments
        lastOf (inner (scope.push (.ofList (params.zip values)))) body
      else
        throw (.arityMismatch params.length arguments.length)
  | found => throw (.uncallableValue found)

def parameterNames (earlier : List String) : List Value → Except Malformation (List String)
  | [] => .ok earlier
  | .symbol name :: rest =>
      if earlier.contains name then .error (.duplicateParameter name)
      else parameterNames (earlier ++ [name]) rest
  | found :: _ => .error (.nonSymbolParameter found)

def makeFunction : List Value → Except Malformation Value
  | [] => .error .missingParameters
  | _ :: [] => .error .missingBody
  | .list params :: first :: rest =>
      (parameterNames [] params).map fun names => .function names (first :: rest)
  | found :: _ :: _ => .error (.parametersNotList found)

/-- A special form, with its arguments as written. It does not look at its own arity, only at
whether it can use what it is given. -/
def special (passing : Passing) (global : Scope) (inner deeper : Evaluator) (scope : Scope)
    (form : SpecialForm) (arguments : List Value) : Evaluation Value :=
  let malformed := fun malformation => throw (.malformedForm form.name malformation)
  match form with
  | .eval =>
      match arguments with
      | [expression] => do inner scope (← inner scope expression)
      | _ => malformed .notOneArgument
  | .defvar =>
      match arguments with
      | [.symbol name, expression] => do define global name (← inner scope expression)
      | [found, _] => malformed (.nonSymbolName found)
      | _ => malformed .notSymbolAndValue
  | .lambda =>
      match makeFunction arguments with
      | .ok function => return function
      | .error malformation => malformed malformation
  | .funcall =>
      match arguments with
      | [] => malformed .missingFunction
      | callee :: rest => do call passing deeper scope (← inner scope callee) rest

/-- A list headed by a symbol. Built-in operations come before any binding of their name. -/
def form (passing : Passing) (global : Scope) (inner deeper : Evaluator) (scope : Scope)
    (head : String) (arguments : List Value) : Evaluation Value :=
  match Builtin.find? head with
  | some builtin => do
      ofExcept (Arity.validate builtin.name arguments.length builtin.arity)
      match builtin with
      | .special specialForm => special passing global inner deeper scope specialForm arguments
      | .arithmetic operator => arithmetic operator (inner scope) arguments
  | none => do call passing inner scope (← inner scope (.symbol head)) arguments

/-- One level of evaluation. Text, numbers, functions and nil are their own values. -/
def level (passing : Passing) (global : Scope) (inner deeper : Evaluator) (scope : Scope) :
    Value → Evaluation Value
  | .symbol name => lookUp scope name
  | .text contents => return .text contents
  | .number value => return .number value
  | .function params body => return .function params body
  | .list [] => return .nil
  | .list (.symbol head :: arguments) => form passing global inner deeper scope head arguments
  | .list (head :: _) => throw (.uncallableHead head)

end Evaluation

/-- Evaluate an expression at a depth. Definitions are written to the root of `global`; every name
is looked up from `scope`. -/
def evaluate (config : Config) (global : Scope) (depth : Nat) (scope : Scope) (expression : Value) :
    Evaluation Value :=
  if below : depth < config.maxDepth then
    Evaluation.level config.passing global
      (fun scope expression => evaluate config global (depth + 1) scope expression)
      (fun scope expression => evaluate config global (depth + 2) scope expression)
      scope expression
  else
    throw (.stackExhausted config.maxDepth)
termination_by config.maxDepth - depth

theorem evaluate_eq_level (config : Config) (global : Scope) {depth : Nat} (scope : Scope)
    (expression : Value) (below : depth < config.maxDepth) :
    evaluate config global depth scope expression =
      Evaluation.level config.passing global (evaluate config global (depth + 1))
        (evaluate config global (depth + 2)) scope expression := by
  rw [evaluate, dif_pos below]

theorem evaluate_eq_throw (config : Config) (global : Scope) {depth : Nat} (scope : Scope)
    (expression : Value) (reached : config.maxDepth ≤ depth) :
    evaluate config global depth scope expression = throw (.stackExhausted config.maxDepth) := by
  rw [evaluate, dif_neg (Nat.not_lt.mpr reached)]

/-- A special form at a depth, without the checks of its arity and of the depth limit. -/
def evaluateSpecial (config : Config) (global : Scope) (depth : Nat) (scope : Scope)
    (form : SpecialForm) (arguments : List Value) : Evaluation Value :=
  Evaluation.special config.passing global (evaluate config global (depth + 1))
    (evaluate config global (depth + 2)) scope form arguments

end TinyLisp
