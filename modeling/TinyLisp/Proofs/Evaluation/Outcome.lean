import Mathlib
import TinyLisp.Evaluation

/-!
Outcomes of computations over the world, what the names of the built-in operations say, what a
lambda form makes, and the induction along which evaluation goes on.
-/

set_option autoImplicit false

namespace TinyLisp

namespace Evaluation

variable {Result Next : Type}

@[simp] theorem outcome_pure (result : Result) (world : World) :
    outcome (pure result) world = (.ok result, world) :=
  rfl

@[simp] theorem outcome_throw (error : EvalError) (world : World) :
    outcome (throw error : Evaluation Result) world = (.error error, world) :=
  rfl

theorem outcome_bind (computation : Evaluation Result) (next : Result → Evaluation Next)
    (world : World) :
    outcome (computation >>= next) world =
      match outcome computation world with
      | (.ok result, after) => outcome (next result) after
      | (.error error, after) => (.error error, after) := by
  change (match outcome computation world with
    | (result, after) => (ExceptT.bindCont next result : StateM World _) after) = _
  rcases outcome computation world with ⟨error | result, after⟩ <;> rfl

@[simp] theorem outcome_of_except (result : Except EvalError Result) (world : World) :
    outcome (ofExcept result) world = (result, world) := by
  cases result <;> rfl

@[simp] theorem outcome_look_up (scope : Scope) (name : String) (world : World) :
    outcome (lookUp scope name) world = (scope.get world name, world) :=
  outcome_of_except (scope.get world name) world

@[simp] theorem outcome_define (scope : Scope) (name : String) (value : Value) (world : World) :
    outcome (define scope name value) world = (.ok value, scope.setGlobal world name value) :=
  rfl

/-- A function is made of the names in a parameter list and of everything behind it. -/
theorem parts_of_make_function {arguments : List Value} {function : Value}
    (made : makeFunction arguments = .ok function) :
    ∃ params names first rest, arguments = .list params :: first :: rest ∧
      parameterNames [] params = .ok names ∧ function = .function names (first :: rest) := by
  revert made
  fun_cases makeFunction arguments with
  | case1 => nofun
  | case2 => nofun
  | case3 params first rest =>
      intro made
      cases accepted : parameterNames [] params with
      | error malformation =>
          rw [accepted] at made
          contradiction
      | ok names =>
          rw [accepted] at made
          exact ⟨params, names, first, rest, rfl, accepted, (Except.ok.inj made).symm⟩
  | case4 => nofun

end Evaluation

namespace Builtin

theorem name_of_find {head : String} {builtin : Builtin} (found : find? head = some builtin) :
    head = builtin.name := by
  have named := List.find?_some found
  exact (eq_of_beq named).symm

end Builtin

/-- Induction from a depth limit downwards, with the hypothesis for the next two depths. -/
@[elab_as_elim]
theorem depth_induction (limit : Nat) {motive : Nat → Prop}
    (reached : ∀ depth, limit ≤ depth → motive depth)
    (below : ∀ depth, depth < limit → motive (depth + 1) → motive (depth + 2) → motive depth)
    (depth : Nat) : motive depth := by
  induction left : limit - depth using Nat.strong_induction_on generalizing depth with
  | _ left ih =>
      by_cases within : depth < limit
      · apply below depth within
        · exact ih (limit - (depth + 1)) (by omega) (depth + 1) rfl
        · exact ih (limit - (depth + 2)) (by omega) (depth + 2) rfl
      · exact reached depth (Nat.not_lt.mp within)

end TinyLisp
