/-!
The built-in operations: four special forms and four arithmetic operators.
-/

set_option autoImplicit false

namespace TinyLisp

/-- How many arguments an operation takes. -/
inductive Arity where
  | exactly (count : Nat)
  | atLeast (count : Nat)
  | any
  deriving DecidableEq, Repr

namespace Arity

def inspect : Arity → String
  | .exactly count => "Exact(" ++ Nat.repr count ++ ")"
  | .atLeast count => "AtLeast(" ++ Nat.repr count ++ ")"
  | .any => "Any"

end Arity

/-- Special forms decide for themselves which of their arguments are evaluated. -/
inductive SpecialForm where
  | eval
  | defvar
  | lambda
  | funcall
  deriving DecidableEq, Repr

namespace SpecialForm

def name : SpecialForm → String
  | .eval => "eval"
  | .defvar => "defvar"
  | .lambda => "lambda"
  | .funcall => "funcall"

def arity : SpecialForm → Arity
  | .eval => .exactly 1
  | .defvar => .exactly 2
  | .lambda => .atLeast 2
  | .funcall => .atLeast 1

end SpecialForm

/-- Operators fold the numbers that all of their arguments evaluate to. -/
inductive Operator where
  | add
  | multiply
  | subtract
  | divide
  deriving DecidableEq, Repr

namespace Operator

def name : Operator → String
  | .add => "+"
  | .multiply => "*"
  | .subtract => "-"
  | .divide => "/"

/-- Fold from the first number on; no numbers give zero. -/
def foldFromFirst (combine : Float → Float → Float) : List Float → Float
  | [] => 0
  | first :: rest => rest.foldl combine first

/-- Sums start from zero and products from one. Differences and quotients start from the first
number, which is therefore the result if it is the only one. -/
def fold : Operator → List Float → Float
  | .add, numbers => numbers.foldl (· + ·) 0
  | .multiply, numbers => numbers.foldl (· * ·) 1
  | .subtract, numbers => foldFromFirst (· - ·) numbers
  | .divide, numbers => foldFromFirst (· / ·) numbers

end Operator

inductive Builtin where
  | special (form : SpecialForm)
  | arithmetic (operator : Operator)
  deriving DecidableEq, Repr

namespace Builtin

def all : List Builtin :=
  [.special .eval, .special .defvar, .special .lambda, .special .funcall,
    .arithmetic .add, .arithmetic .multiply, .arithmetic .subtract, .arithmetic .divide]

def name : Builtin → String
  | .special form => form.name
  | .arithmetic operator => operator.name

def arity : Builtin → Arity
  | .special form => form.arity
  | .arithmetic _ => .any

def isSpecial : Builtin → Bool
  | .special _ => true
  | .arithmetic _ => false

/-- The operation that a symbol names. -/
def find? (name : String) : Option Builtin :=
  all.find? fun builtin => builtin.name == name

/-- No two operations share a name. -/
@[simp] theorem find?_name (builtin : Builtin) : find? builtin.name = some builtin := by
  rcases builtin with form | operator
  · cases form <;> decide
  · cases operator <;> decide

def inspect (builtin : Builtin) : String :=
  "BuiltinOp \x7b name: \"" ++ builtin.name ++ "\", op_kind: " ++
    (if builtin.isSpecial then "SpecialForm" else "Arithmetic") ++ "(<fn>), arity: " ++
    builtin.arity.inspect ++ " \x7d"

end Builtin

end TinyLisp
