import TinyLisp.Proofs.Evaluation.Outcome

/-!
Two evaluations side by side.

One expression is evaluated from two scopes over two worlds. The two evaluations give the same as
long as every name that they come to look up has the same value on both sides, and for this the
expressions they come to and the values they are given have to stay in a class. A simulation says
what this class is and how scopes and worlds correspond. It leaves open how functions are called,
so that the two sides may pass their arguments in different ways.
-/

set_option autoImplicit false

namespace TinyLisp

namespace Value

/-- An expression and another one that its evaluation begins with, in the same scope. -/
inductive Evaluates : Value → Value → Prop
  | operand (operator : Operator) {arguments : List Value} {argument : Value}
      (member : argument ∈ arguments) :
      Evaluates (.list (.symbol operator.name :: arguments)) argument
  | forced (expression : Value) : Evaluates (.list [.symbol "eval", expression]) expression
  | defined (name : String) (expression : Value) :
      Evaluates (.list [.symbol "defvar", .symbol name, expression]) expression
  | callee (callee : Value) (arguments : List Value) :
      Evaluates (.list (.symbol "funcall" :: callee :: arguments)) callee
  | head {head : String} (ordinary : Builtin.find? head = none) (arguments : List Value) :
      Evaluates (.list (.symbol head :: arguments)) (.symbol head)

/-- An expression and the arguments that it calls a function with. -/
inductive CallsWith : Value → List Value → Prop
  | funcall (callee : Value) (arguments : List Value) :
      CallsWith (.list (.symbol "funcall" :: callee :: arguments)) arguments
  | head {head : String} (ordinary : Builtin.find? head = none) (arguments : List Value) :
      CallsWith (.list (.symbol head :: arguments)) arguments

end Value

structure Simulation (leftGlobal rightGlobal : Scope) where
  Worlds : World → World → Prop
  Scopes : Scope → Scope → Prop
  /-- What is evaluated. -/
  Expression : Value → Prop
  /-- What evaluation gives. -/
  Given : Value → Prop
  part : ∀ {expression part}, Expression expression → expression.Evaluates part → Expression part
  again : ∀ {value}, Given value → Expression value
  text : ∀ contents, Given (.text contents)
  number : ∀ number, Given (.number number)
  nil : Given .nil
  function : ∀ {params body}, Expression (.function params body) → Given (.function params body)
  lambda : ∀ {arguments function}, Expression (.list (.symbol "lambda" :: arguments)) →
    Evaluation.makeFunction arguments = .ok function → Given function
  lookUp : ∀ {leftScope rightScope leftWorld rightWorld name}, Scopes leftScope rightScope →
    Worlds leftWorld rightWorld → Expression (.symbol name) →
      leftScope.get leftWorld name = rightScope.get rightWorld name ∧
        ∀ value, leftScope.get leftWorld name = .ok value → Given value
  define : ∀ {leftWorld rightWorld name expression value}, Worlds leftWorld rightWorld →
    Expression (.list [.symbol "defvar", .symbol name, expression]) → Given value →
      Worlds (leftGlobal.setGlobal leftWorld name value)
        (rightGlobal.setGlobal rightWorld name value)

namespace Simulation

variable {leftGlobal rightGlobal : Scope} {simulation : Simulation leftGlobal rightGlobal}

/-- Over corresponding worlds, two computations end alike and leave corresponding worlds, and what
they give is as stated. -/
def Agree (simulation : Simulation leftGlobal rightGlobal) {Result : Type}
    (Gives : Result → Prop) (left right : Evaluation Result) : Prop :=
  ∀ leftWorld rightWorld, simulation.Worlds leftWorld rightWorld →
    simulation.Worlds (left.outcome leftWorld).2 (right.outcome rightWorld).2 ∧
      (left.outcome leftWorld).1 = (right.outcome rightWorld).1 ∧
      ∀ result, (left.outcome leftWorld).1 = .ok result → Gives result

section Computations

variable {Result Next : Type} {Gives : Result → Prop}

theorem agree_pure {result : Result} (given : Gives result) :
    simulation.Agree Gives (pure result) (pure result) := by
  intro leftWorld rightWorld worlds
  refine ⟨worlds, rfl, ?_⟩
  rintro _ ⟨⟩
  exact given

theorem agree_of_except {result : Except EvalError Result}
    (given : ∀ value, result = .ok value → Gives value) :
    simulation.Agree Gives (ofExcept result) (ofExcept result) := by
  intro leftWorld rightWorld worlds
  rw [Evaluation.outcome_of_except, Evaluation.outcome_of_except]
  exact ⟨worlds, rfl, given⟩

theorem agree_throw (error : EvalError) :
    simulation.Agree Gives (throw error) (throw error) := by
  intro leftWorld rightWorld worlds
  refine ⟨worlds, rfl, ?_⟩
  intro result impossible
  contradiction

theorem agree_bind {NextGives : Next → Prop} {left right : Evaluation Result}
    {leftNext rightNext : Result → Evaluation Next} (first : simulation.Agree Gives left right)
    (second : ∀ result, Gives result →
      simulation.Agree NextGives (leftNext result) (rightNext result)) :
    simulation.Agree NextGives (left >>= leftNext) (right >>= rightNext) := by
  intro leftWorld rightWorld worlds
  obtain ⟨between, same, given⟩ := first leftWorld rightWorld worlds
  rw [Evaluation.outcome_bind, Evaluation.outcome_bind]
  generalize left.outcome leftWorld = leftEnded, right.outcome rightWorld = rightEnded
    at between same given ⊢
  obtain ⟨leftResult, leftBetween⟩ := leftEnded
  obtain ⟨rightResult, rightBetween⟩ := rightEnded
  obtain rfl : leftResult = rightResult := same
  cases leftResult with
  | error error =>
      refine ⟨between, rfl, ?_⟩
      intro result impossible
      contradiction
  | ok result => exact second result (given result rfl) leftBetween rightBetween between

variable {Item : Type}

theorem agree_mapM {left right : Item → Evaluation Result} {items : List Item}
    (each : ∀ item ∈ items, simulation.Agree Gives (left item) (right item)) :
    simulation.Agree (fun results => ∀ result ∈ results, Gives result) (items.mapM left)
      (items.mapM right) := by
  induction items with
  | nil => exact agree_pure (List.forall_mem_nil _)
  | cons item items ih =>
      obtain ⟨itemAgrees, restAgrees⟩ := List.forall_mem_cons.mp each
      rw [List.mapM_cons, List.mapM_cons]
      apply agree_bind itemAgrees
      intro result given
      apply agree_bind (ih restAgrees)
      intro results givens
      exact agree_pure (List.forall_mem_cons.mpr ⟨given, givens⟩)

theorem agree_foldlM {left right : Result → Item → Evaluation Result} {items : List Item}
    (each : ∀ item ∈ items, ∀ result, Gives result →
      simulation.Agree Gives (left result item) (right result item))
    {initial : Result} (given : Gives initial) :
    simulation.Agree Gives (items.foldlM left initial) (items.foldlM right initial) := by
  induction items generalizing initial with
  | nil => exact agree_pure given
  | cons item items ih =>
      obtain ⟨itemAgrees, restAgrees⟩ := List.forall_mem_cons.mp each
      rw [List.foldlM_cons, List.foldlM_cons]
      apply agree_bind (itemAgrees initial given)
      intro result resultGiven
      exact ih restAgrees resultGiven

end Computations

def Evaluators (simulation : Simulation leftGlobal rightGlobal) (left right : Evaluator) : Prop :=
  ∀ ⦃leftScope rightScope⦄, simulation.Scopes leftScope rightScope →
    ∀ expression, simulation.Expression expression →
      simulation.Agree simulation.Given (left leftScope expression) (right rightScope expression)

/-- Two evaluators that agree on every call that an expression of the class makes. -/
def Calls (simulation : Simulation leftGlobal rightGlobal) (leftPassing rightPassing : Passing)
    (left right : Evaluator) : Prop :=
  ∀ ⦃leftScope rightScope⦄, simulation.Scopes leftScope rightScope →
    ∀ expression arguments, simulation.Expression expression → expression.CallsWith arguments →
      ∀ callee, simulation.Given callee →
        simulation.Agree simulation.Given
          (Evaluation.call leftPassing left leftScope callee arguments)
          (Evaluation.call rightPassing right rightScope callee arguments)

section Forms

variable {left right : Value → Evaluation Value}

theorem agree_last_of {expressions : List Value}
    (each : ∀ expression ∈ expressions,
      simulation.Agree simulation.Given (left expression) (right expression)) :
    simulation.Agree simulation.Given (Evaluation.lastOf left expressions)
      (Evaluation.lastOf right expressions) :=
  agree_foldlM (fun expression member _ _ => each expression member) simulation.nil

theorem agree_numbers (operator : Operator) {arguments : List Value}
    (each : ∀ argument ∈ arguments,
      simulation.Agree simulation.Given (left argument) (right argument)) :
    simulation.Agree (fun numbers => ∀ number ∈ numbers, True)
      (arguments.mapM (Evaluation.number operator left))
      (arguments.mapM (Evaluation.number operator right)) := by
  apply agree_mapM
  intro argument member
  apply agree_bind (each argument member)
  intro value given
  cases value with
  | number number => exact agree_pure trivial
  | _ => exact agree_throw _

theorem agree_arithmetic (operator : Operator) {arguments : List Value}
    (each : ∀ argument ∈ arguments,
      simulation.Agree simulation.Given (left argument) (right argument)) :
    simulation.Agree simulation.Given (Evaluation.arithmetic operator left arguments)
      (Evaluation.arithmetic operator right arguments) := by
  apply agree_bind (agree_numbers operator each)
  intro numbers _
  exact agree_pure (simulation.number (operator.fold numbers))

variable {leftInner rightInner leftDeeper rightDeeper : Evaluator} {leftScope rightScope : Scope}

/-- A call, given how its arguments are passed and what the frame that they make does to the
scopes. -/
theorem agree_call {leftPassing rightPassing : Passing}
    (inside : simulation.Evaluators leftInner rightInner) {callee : Value} {arguments : List Value}
    {Bindable : Value → Prop}
    (passed : simulation.Agree (fun values => ∀ value ∈ values, Bindable value)
      (Evaluation.passed leftPassing (leftInner leftScope) arguments)
      (Evaluation.passed rightPassing (rightInner rightScope) arguments))
    (pushed : ∀ (params : List String) (values : List Value), (∀ value ∈ values, Bindable value) →
      simulation.Scopes (leftScope.push (.ofList (params.zip values)))
        (rightScope.push (.ofList (params.zip values))))
    (body : ∀ params body, callee = .function params body →
      ∀ expression ∈ body, simulation.Expression expression) :
    simulation.Agree simulation.Given
      (Evaluation.call leftPassing leftInner leftScope callee arguments)
      (Evaluation.call rightPassing rightInner rightScope callee arguments) := by
  unfold Evaluation.call
  split
  case h_1 params expressions =>
    split
    · apply agree_bind passed
      intro values bindable
      apply agree_last_of
      intro expression member
      exact inside (pushed params values bindable) expression
        (body params expressions rfl expression member)
    · exact agree_throw _
  case h_2 => exact agree_throw _

/-- Evaluators that agree also agree on calls, where both sides pass their arguments in the same
way, what is passed may be bound, and what a function holds may be evaluated. -/
theorem calls_of_evaluators (passing : Passing)
    (inside : simulation.Evaluators leftInner rightInner)
    (pushed : ∀ {leftScope rightScope : Scope}, simulation.Scopes leftScope rightScope →
      ∀ (params : List String) {values : List Value}, (∀ value ∈ values, simulation.Given value) →
        simulation.Scopes (leftScope.push (.ofList (params.zip values)))
          (rightScope.push (.ofList (params.zip values))))
    (written : ∀ {expression : Value} {arguments : List Value}, simulation.Expression expression →
      expression.CallsWith arguments → ∀ argument ∈ arguments,
        simulation.Expression argument ∧ simulation.Given argument)
    (bodies : ∀ {params : List String} {body : List Value},
      simulation.Given (.function params body) →
        ∀ expression ∈ body, simulation.Expression expression) :
    simulation.Calls passing passing leftInner rightInner := by
  intro leftScope rightScope scopes expression arguments evaluated calls callee given
  have members := written evaluated calls
  have passed : simulation.Agree (fun values => ∀ value ∈ values, simulation.Given value)
      (Evaluation.passed passing (leftInner leftScope) arguments)
      (Evaluation.passed passing (rightInner rightScope) arguments) := by
    cases passing with
    | unevaluated =>
        apply agree_pure
        intro argument member
        exact (members argument member).2
    | evaluated =>
        apply agree_mapM
        intro argument member
        exact inside scopes argument (members argument member).1
  apply agree_call inside passed
  · intro params values valuesGiven
    exact pushed scopes params valuesGiven
  · intro params body same
    subst same
    exact bodies given

theorem agree_special {leftPassing rightPassing : Passing}
    (inside : simulation.Evaluators leftInner rightInner)
    (calls : simulation.Calls leftPassing rightPassing leftDeeper rightDeeper)
    (scopes : simulation.Scopes leftScope rightScope) (form : SpecialForm)
    {arguments : List Value}
    (evaluated : simulation.Expression (.list (.symbol form.name :: arguments))) :
    simulation.Agree simulation.Given
      (Evaluation.special leftPassing leftGlobal leftInner leftDeeper leftScope form arguments)
      (Evaluation.special rightPassing rightGlobal rightInner rightDeeper rightScope form
        arguments) := by
  cases form with
  | eval =>
      simp only [Evaluation.special]
      split
      case h_1 expression =>
        apply agree_bind (inside scopes expression (simulation.part evaluated (.forced _)))
        intro value given
        exact inside scopes value (simulation.again given)
      case h_2 => exact agree_throw _
  | defvar =>
      simp only [Evaluation.special]
      split
      case h_1 name expression =>
        apply agree_bind (inside scopes expression (simulation.part evaluated (.defined _ _)))
        intro value given leftWorld rightWorld worlds
        refine ⟨simulation.define worlds evaluated given, rfl, ?_⟩
        rintro _ ⟨⟩
        exact given
      all_goals exact agree_throw _
  | lambda =>
      simp only [Evaluation.special]
      split
      case h_1 function made => exact agree_pure (simulation.lambda evaluated made)
      case h_2 => exact agree_throw _
  | funcall =>
      simp only [Evaluation.special]
      split
      case h_1 => exact agree_throw _
      case h_2 callee rest =>
        apply agree_bind (inside scopes callee (simulation.part evaluated (.callee _ _)))
        intro value given
        exact calls scopes _ rest evaluated (.funcall callee rest) value given

theorem agree_form {leftPassing rightPassing : Passing}
    (inside : simulation.Evaluators leftInner rightInner)
    (calls : simulation.Calls leftPassing rightPassing leftInner rightInner)
    (deeperCalls : simulation.Calls leftPassing rightPassing leftDeeper rightDeeper)
    (scopes : simulation.Scopes leftScope rightScope) {head : String} {arguments : List Value}
    (evaluated : simulation.Expression (.list (.symbol head :: arguments))) :
    simulation.Agree simulation.Given
      (Evaluation.form leftPassing leftGlobal leftInner leftDeeper leftScope head arguments)
      (Evaluation.form rightPassing rightGlobal rightInner rightDeeper rightScope head
        arguments) := by
  unfold Evaluation.form
  split
  case h_1 builtin found =>
    have accepted : ∀ result,
        builtin.arity.validate builtin.name arguments.length = .ok result → True :=
      fun _ _ => trivial
    apply agree_bind (agree_of_except accepted)
    intro _ _
    rw [Builtin.name_of_find found] at evaluated
    cases builtin with
    | special form => exact agree_special inside deeperCalls scopes form evaluated
    | arithmetic operator =>
        apply agree_arithmetic operator
        intro argument member
        exact inside scopes argument (simulation.part evaluated (.operand operator member))
  case h_2 ordinary =>
    apply agree_bind (inside scopes _ (simulation.part evaluated (.head ordinary arguments)))
    intro callee given
    exact calls scopes _ arguments evaluated (.head ordinary arguments) callee given

theorem agree_level {leftPassing rightPassing : Passing}
    (inside : simulation.Evaluators leftInner rightInner)
    (calls : simulation.Calls leftPassing rightPassing leftInner rightInner)
    (deeperCalls : simulation.Calls leftPassing rightPassing leftDeeper rightDeeper) :
    simulation.Evaluators (Evaluation.level leftPassing leftGlobal leftInner leftDeeper)
      (Evaluation.level rightPassing rightGlobal rightInner rightDeeper) := by
  intro leftScope rightScope scopes expression evaluated
  unfold Evaluation.level
  split
  · intro leftWorld rightWorld worlds
    rw [Evaluation.outcome_look_up, Evaluation.outcome_look_up]
    exact ⟨worlds, simulation.lookUp scopes worlds evaluated⟩
  · exact agree_pure (simulation.text _)
  · exact agree_pure (simulation.number _)
  · exact agree_pure (simulation.function evaluated)
  · exact agree_pure simulation.nil
  · exact agree_form inside calls deeperCalls scopes evaluated
  · exact agree_throw _

end Forms

/-- Evaluations under one limit agree at every depth, if evaluators that agree agree on calls. -/
theorem agree_evaluate {left right : Config} (sameLimit : right.maxDepth = left.maxDepth)
    (calls : ∀ depth,
      simulation.Evaluators (evaluate left leftGlobal depth) (evaluate right rightGlobal depth) →
      simulation.Calls left.passing right.passing (evaluate left leftGlobal depth)
        (evaluate right rightGlobal depth))
    (depth : Nat) :
    simulation.Evaluators (evaluate left leftGlobal depth)
      (evaluate right rightGlobal depth) := by
  induction depth using depth_induction left.maxDepth with
  | reached depth reached =>
      intro leftScope rightScope scopes expression evaluated
      rw [evaluate_eq_throw left leftGlobal leftScope expression reached,
        evaluate_eq_throw right rightGlobal rightScope expression (sameLimit ▸ reached), sameLimit]
      exact agree_throw _
  | below depth below next second =>
      intro leftScope rightScope scopes expression evaluated
      rw [evaluate_eq_level left leftGlobal leftScope expression below,
        evaluate_eq_level right rightGlobal rightScope expression (sameLimit ▸ below)]
      exact agree_level next (calls _ next) (calls _ second) scopes expression evaluated

end Simulation

end TinyLisp
