import TinyLisp.Proofs.Evaluation.Outcome

/-!
Relations between evaluations that one level carries over.

A level of evaluation is put together from the evaluators of the next two depths by sequencing,
look-ups, definitions and failures of its own. So a relation between computations that respects
these holds between two levels as soon as it holds between the evaluators they go on with, and
between two evaluations as soon as it holds where the first one reaches its depth limit.
-/

set_option autoImplicit false

namespace TinyLisp

/-- The failure of an evaluation that has reached its depth limit. No level fails like this. -/
def EvalError.isExhausted : EvalError → Bool
  | .stackExhausted _ => true
  | _ => false

/-- A relation between computations, and between the scopes they look names up in, that respects
what a level of evaluation does. -/
structure Congruence where
  Related : ∀ {Result : Type}, Evaluation Result → Evaluation Result → Prop
  Scopes : Scope → Scope → Prop
  pure : ∀ {Result : Type} (result : Result), Related (Pure.pure result) (Pure.pure result)
  throw : ∀ {Result : Type} {error : EvalError}, error.isExhausted = false →
    Related (MonadExcept.throw error : Evaluation Result) (MonadExcept.throw error)
  bind : ∀ {Result Next : Type} {left right : Evaluation Result}
    {leftNext rightNext : Result → Evaluation Next}, Related left right →
      (∀ result, Related (leftNext result) (rightNext result)) →
      Related (left >>= leftNext) (right >>= rightNext)
  lookUp : ∀ {left right name}, Scopes left right →
    Related (Evaluation.lookUp left name) (Evaluation.lookUp right name)
  define : ∀ global name value,
    Related (Evaluation.define global name value) (Evaluation.define global name value)
  push : ∀ {left right} frame, Scopes left right → Scopes (left.push frame) (right.push frame)

namespace Congruence

variable {congruence : Congruence}

/-- Two evaluators that are related wherever their scopes are. -/
def Evaluators (congruence : Congruence) (left right : Evaluator) : Prop :=
  ∀ ⦃leftScope rightScope⦄ expression, congruence.Scopes leftScope rightScope →
    congruence.Related (left leftScope expression) (right rightScope expression)

section Computations

variable {Item Result : Type}

theorem related_of_except {result : Except EvalError Result}
    (ordinary : ∀ error, result = .error error → error.isExhausted = false) :
    congruence.Related (ofExcept result) (ofExcept result) := by
  cases result with
  | ok result => exact congruence.pure result
  | error error => exact congruence.throw (ordinary error rfl)

theorem related_mapM {left right : Item → Evaluation Result}
    (each : ∀ item, congruence.Related (left item) (right item)) (items : List Item) :
    congruence.Related (items.mapM left) (items.mapM right) := by
  induction items with
  | nil => exact congruence.pure []
  | cons item items ih =>
      rw [List.mapM_cons, List.mapM_cons]
      apply congruence.bind (each item)
      intro result
      apply congruence.bind ih
      intro results
      exact congruence.pure (result :: results)

theorem related_foldlM {left right : Result → Item → Evaluation Result}
    (each : ∀ result item, congruence.Related (left result item) (right result item))
    (items : List Item) (initial : Result) :
    congruence.Related (items.foldlM left initial) (items.foldlM right initial) := by
  induction items generalizing initial with
  | nil => exact congruence.pure initial
  | cons item items ih =>
      rw [List.foldlM_cons, List.foldlM_cons]
      exact congruence.bind (each initial item) ih

end Computations

section Forms

variable {left right : Value → Evaluation Value}

theorem related_last_of
    (each : ∀ expression, congruence.Related (left expression) (right expression))
    (expressions : List Value) :
    congruence.Related (Evaluation.lastOf left expressions)
      (Evaluation.lastOf right expressions) :=
  related_foldlM (fun _ expression => each expression) expressions Value.nil

theorem related_number (operator : Operator)
    (each : ∀ expression, congruence.Related (left expression) (right expression))
    (argument : Value) :
    congruence.Related (Evaluation.number operator left argument)
      (Evaluation.number operator right argument) := by
  apply congruence.bind (each argument)
  intro value
  cases value with
  | number number => exact congruence.pure number
  | _ => exact congruence.throw rfl

theorem related_arithmetic (operator : Operator)
    (each : ∀ expression, congruence.Related (left expression) (right expression))
    (arguments : List Value) :
    congruence.Related (Evaluation.arithmetic operator left arguments)
      (Evaluation.arithmetic operator right arguments) := by
  apply congruence.bind (related_mapM (related_number operator each) arguments)
  intro numbers
  exact congruence.pure _

theorem related_passed (passing : Passing)
    (each : ∀ expression, congruence.Related (left expression) (right expression))
    (arguments : List Value) :
    congruence.Related (Evaluation.passed passing left arguments)
      (Evaluation.passed passing right arguments) := by
  cases passing with
  | unevaluated => exact congruence.pure arguments
  | evaluated => exact related_mapM each arguments

end Forms

section Levels

variable {leftInner rightInner leftDeeper rightDeeper : Evaluator} {leftScope rightScope : Scope}

theorem related_call (passing : Passing)
    (inside : congruence.Evaluators leftInner rightInner)
    (scopes : congruence.Scopes leftScope rightScope) (callee : Value) (arguments : List Value) :
    congruence.Related (Evaluation.call passing leftInner leftScope callee arguments)
      (Evaluation.call passing rightInner rightScope callee arguments) := by
  unfold Evaluation.call
  split
  case h_1 params body =>
    split
    · apply congruence.bind
      · exact related_passed passing (fun expression => inside expression scopes) arguments
      · intro values
        apply related_last_of
        intro expression
        exact inside expression (congruence.push _ scopes)
    · exact congruence.throw rfl
  case h_2 => exact congruence.throw rfl

theorem related_special (passing : Passing) (global : Scope)
    (inside : congruence.Evaluators leftInner rightInner)
    (below : congruence.Evaluators leftDeeper rightDeeper)
    (scopes : congruence.Scopes leftScope rightScope) (form : SpecialForm)
    (arguments : List Value) :
    congruence.Related
      (Evaluation.special passing global leftInner leftDeeper leftScope form arguments)
      (Evaluation.special passing global rightInner rightDeeper rightScope form arguments) := by
  cases form with
  | eval =>
      simp only [Evaluation.special]
      split
      case h_1 expression =>
        apply congruence.bind (inside expression scopes)
        intro value
        exact inside value scopes
      case h_2 => exact congruence.throw rfl
  | defvar =>
      simp only [Evaluation.special]
      split
      case h_1 name expression =>
        apply congruence.bind (inside expression scopes)
        intro value
        exact congruence.define global name value
      all_goals exact congruence.throw rfl
  | lambda =>
      simp only [Evaluation.special]
      split
      · exact congruence.pure _
      · exact congruence.throw rfl
  | funcall =>
      simp only [Evaluation.special]
      split
      case h_1 => exact congruence.throw rfl
      case h_2 callee rest =>
        apply congruence.bind (inside callee scopes)
        intro value
        exact related_call passing below scopes value rest

theorem ordinary_of_validate {form : String} {given : Nat} {arity : Arity} {error : EvalError}
    (refused : arity.validate form given = .error error) : error.isExhausted = false := by
  revert refused
  fun_cases Arity.validate form given arity
  all_goals
    intro refused
    cases refused
  all_goals rfl

theorem related_form (passing : Passing) (global : Scope)
    (inside : congruence.Evaluators leftInner rightInner)
    (below : congruence.Evaluators leftDeeper rightDeeper)
    (scopes : congruence.Scopes leftScope rightScope) (head : String) (arguments : List Value) :
    congruence.Related
      (Evaluation.form passing global leftInner leftDeeper leftScope head arguments)
      (Evaluation.form passing global rightInner rightDeeper rightScope head arguments) := by
  unfold Evaluation.form
  split
  case h_1 builtin found =>
    apply congruence.bind
    · exact related_of_except fun error refused => ordinary_of_validate refused
    · intro _
      cases builtin with
      | special form =>
          exact related_special passing global inside below scopes form arguments
      | arithmetic operator =>
          exact related_arithmetic operator (fun expression => inside expression scopes) arguments
  case h_2 =>
    apply congruence.bind (inside _ scopes)
    intro callee
    exact related_call passing inside scopes callee arguments

theorem related_level (passing : Passing) (global : Scope)
    (inside : congruence.Evaluators leftInner rightInner)
    (below : congruence.Evaluators leftDeeper rightDeeper) :
    congruence.Evaluators (Evaluation.level passing global leftInner leftDeeper)
      (Evaluation.level passing global rightInner rightDeeper) := by
  intro leftScope rightScope expression scopes
  unfold Evaluation.level
  split
  · exact congruence.lookUp scopes
  · exact congruence.pure _
  · exact congruence.pure _
  · exact congruence.pure _
  · exact congruence.pure _
  · exact related_form passing global inside below scopes _ _
  · exact congruence.throw rfl

end Levels

/-- Evaluations at depths a fixed distance apart are related, if the second one is still below its
limit where the first one is, and if they are related where the first one has reached its limit. -/
theorem related_evaluate {config other : Config} (samePassing : other.passing = config.passing)
    (global : Scope) (distance : Nat)
    (goesOn : ∀ depth, depth < config.maxDepth → depth + distance < other.maxDepth)
    (stops : ∀ depth scope expression, config.maxDepth ≤ depth →
      congruence.Related (MonadExcept.throw (.stackExhausted config.maxDepth))
        (evaluate other global (depth + distance) scope expression))
    (depth : Nat) :
    congruence.Evaluators (evaluate config global depth)
      (evaluate other global (depth + distance)) := by
  induction depth using depth_induction config.maxDepth with
  | reached depth reached =>
      intro leftScope rightScope expression scopes
      rw [evaluate_eq_throw config global leftScope expression reached]
      exact stops depth rightScope expression reached
  | below depth below next second =>
      intro leftScope rightScope expression scopes
      rw [Nat.add_right_comm] at next second
      rw [evaluate_eq_level config global leftScope expression below,
        evaluate_eq_level other global rightScope expression (goesOn depth below), samePassing]
      exact related_level config.passing global next second expression scopes

end Congruence

end TinyLisp
