import TinyLisp.Proofs.Evaluation.NormalForms
import TinyLisp.Proofs.Value.Reading

/-!
Sessions without functions.

Where no lambda form is read, no function is ever made, so no call succeeds and every evaluation
goes on inside the expression it was given. A value that is evaluated once more is a literal, and it
stands where the expression stood that it came from. So evaluation goes no deeper than the
expression is nested, and the limit on nesting keeps it away from any depth limit that is not lower.
-/

set_option autoImplicit false

namespace TinyLisp

namespace Value

/-- A value under so many lists, within the nesting limit, that has no function inside and no symbol
that could make one. -/
def FunctionFreeAt (depth : Nat) (value : Value) : Prop :=
  ∀ below node, value.HasNode below node →
    depth + below < maxNesting ∧ node ≠ .symbol "lambda" ∧ node.isFunction = false

section FunctionFree

variable {depth : Nat}

theorem FunctionFreeAt.itself {value : Value} (free : value.FunctionFreeAt depth) :
    depth < maxNesting ∧ value ≠ .symbol "lambda" ∧ value.isFunction = false :=
  free 0 value (.root value)

theorem FunctionFreeAt.element {elements : List Value} {element : Value}
    (free : (Value.list elements).FunctionFreeAt depth) (member : element ∈ elements) :
    element.FunctionFreeAt (depth + 1) := by
  intro below node inside
  have held := free (below + 1) node (.element member inside)
  exact ⟨by omega, held.2⟩

theorem FunctionFreeAt.part {expression part : Value} (free : expression.FunctionFreeAt depth)
    (evaluates : expression.Evaluates part) : part.FunctionFreeAt (depth + 1) := by
  cases evaluates with
  | operand operator member => exact free.element (List.mem_cons_of_mem _ member)
  | forced => exact free.element (by simp)
  | defined => exact free.element (by simp)
  | callee => exact free.element (by simp)
  | head => exact free.element (by simp)

theorem IsLiteral.function_free {value : Value} (literal : value.IsLiteral)
    (bound : depth < maxNesting) : value.FunctionFreeAt depth := by
  have leaf : ∀ below node, ¬value.HasNode (below + 1) node := by
    cases value with
    | list elements =>
        cases elements with
        | nil =>
            intro below node inside
            cases inside
            contradiction
        | cons head arguments => contradiction
    | symbol name => contradiction
    | function params body => contradiction
    | _ => nofun
  intro below node inside
  cases below with
  | zero =>
      rw [has_node_zero_iff.mp inside]
      cases value with
      | symbol name => contradiction
      | function params body => contradiction
      | _ => exact ⟨bound, nofun, rfl⟩
  | succ below => exact absurd inside (leaf below node)

theorem function_free_of_read_all {source : String} {values : List Value}
    (read : readAll (Token.tokenize source) = .ok values)
    (noLambda : .atom "lambda" ∉ Token.tokenize source) :
    ∀ value ∈ values, value.FunctionFreeAt 0 := by
  intro value member below node inside
  obtain ⟨shallow, datum⟩ := datum_of_read_all read value member below node inside
  refine ⟨shallow, ?_, ?_⟩
  · rintro rfl
    rcases made_from_of_read_all read value member below _ inside
      with ⟨elements, isList⟩ | ⟨spelling, token, readAs⟩
    · contradiction
    · rcases read_atom_cases readAs with ⟨contents, -, isText⟩ | ⟨number, isNumber⟩ | isSymbol
      · contradiction
      · contradiction
      · rw [← Value.symbol.inj isSymbol] at token
        exact noLambda token
  · cases node with
    | function params body => exact absurd datum id
    | _ => rfl

end FunctionFree

end Value

namespace Evaluation

/-- Where a scope holds literals, a computation writes literals only and does not reach the depth
limit, and what it gives is as stated. -/
def Finishes (scope : Scope) {Result : Type} (computation : Evaluation Result)
    (Gives : Result → Prop) : Prop :=
  ∀ world, (∀ value, scope.Holds world value → value.IsLiteral) →
    world.Gains Value.IsLiteral (computation.outcome world).2 ∧
      match (computation.outcome world).1 with
      | .ok result => Gives result
      | .error error => error.isExhausted = false

section Computations

variable {scope : Scope} {Result Next : Type} {Gives : Result → Prop}

theorem finishes_pure {result : Result} (given : Gives result) :
    Finishes scope (pure result) Gives := by
  intro world _
  exact ⟨.refl _ world, given⟩

theorem finishes_throw {error : EvalError} (ordinary : error.isExhausted = false) :
    Finishes scope (throw error) Gives := by
  intro world _
  exact ⟨.refl _ world, ordinary⟩

theorem finishes_bind {NextGives : Next → Prop} {computation : Evaluation Result}
    {next : Result → Evaluation Next} (first : Finishes scope computation Gives)
    (second : ∀ result, Gives result → Finishes scope (next result) NextGives) :
    Finishes scope (computation >>= next) NextGives := by
  intro world held
  obtain ⟨gains, given⟩ := first world held
  rw [outcome_bind]
  generalize computation.outcome world = ended at gains given
  obtain ⟨error | result, between⟩ := ended
  · exact ⟨gains, given⟩
  · obtain ⟨laterGains, laterGiven⟩ :=
      second result given between (Scope.holds_after_gains held gains)
    exact ⟨gains.trans laterGains, laterGiven⟩

theorem finishes_mapM {Item : Type} {step : Item → Evaluation Result} {items : List Item}
    (each : ∀ item ∈ items, Finishes scope (step item) Gives) :
    Finishes scope (items.mapM step) fun _ => True := by
  induction items with
  | nil => exact finishes_pure trivial
  | cons item items ih =>
      obtain ⟨itemFinishes, restFinish⟩ := List.forall_mem_cons.mp each
      rw [List.mapM_cons]
      apply finishes_bind itemFinishes
      intro result _
      apply finishes_bind (ih restFinish)
      intro results _
      exact finishes_pure trivial

theorem finishes_of_except {result : Except EvalError Result}
    (given : ∀ value, result = .ok value → Gives value)
    (ordinary : ∀ error, result = .error error → error.isExhausted = false) :
    Finishes scope (ofExcept result) Gives := by
  cases result with
  | ok value => exact finishes_pure (given value rfl)
  | error error => exact finishes_throw (ordinary error rfl)

theorem finishes_foldlM {Item : Type} {step : Result → Item → Evaluation Result}
    {items : List Item}
    (each : ∀ item ∈ items, ∀ result, Finishes scope (step result item) Gives)
    {initial : Result} (given : Gives initial) :
    Finishes scope (items.foldlM step initial) Gives := by
  induction items generalizing initial with
  | nil => exact finishes_pure given
  | cons item items ih =>
      obtain ⟨itemFinishes, restFinish⟩ := List.forall_mem_cons.mp each
      rw [List.foldlM_cons]
      apply finishes_bind (itemFinishes initial)
      intro result resultGiven
      exact ih restFinish resultGiven

end Computations

section Forms

variable {global scope : Scope} {inner deeper : Evaluator}

theorem finishes_look_up (name : String) :
    Finishes scope (lookUp scope name) Value.IsLiteral := by
  intro world held
  rw [outcome_look_up]
  refine ⟨.refl _ world, ?_⟩
  cases got : scope.get world name with
  | ok value =>
      have frames := Scope.FramesShow.of_holds held
      exact frames.get (fun _ _ found => held _ (Scope.holds_of_root found)) got
  | error error =>
      rw [Scope.get] at got
      split at got
      · contradiction
      · rw [← Except.error.inj got]
        rfl

theorem finishes_arithmetic (operator : Operator) {evaluate : Value → Evaluation Value}
    {arguments : List Value}
    (each : ∀ argument ∈ arguments, Finishes scope (evaluate argument) Value.IsLiteral) :
    Finishes scope (arithmetic operator evaluate arguments) Value.IsLiteral := by
  have number : ∀ argument ∈ arguments,
      Finishes scope (number operator evaluate argument) fun _ => True := by
    intro argument member
    apply finishes_bind (each argument member)
    intro value _
    cases value with
    | number number => exact finishes_pure trivial
    | _ => exact finishes_throw rfl
  apply finishes_bind (finishes_mapM number)
  intro numbers _
  exact finishes_pure trivial

/-- A literal cannot be called. -/
theorem finishes_call (passing : Passing) {callee : Value} (literal : callee.IsLiteral)
    (arguments : List Value) :
    Finishes scope (call passing inner scope callee arguments) Value.IsLiteral := by
  cases callee with
  | function params body => contradiction
  | _ => exact finishes_throw rfl

theorem finishes_special (passing : Passing) {depth : Nat}
    (inside : ∀ expression, expression.FunctionFreeAt (depth + 1) →
      Finishes scope (inner scope expression) Value.IsLiteral)
    (form : SpecialForm) {arguments : List Value}
    (free : (Value.list (.symbol form.name :: arguments)).FunctionFreeAt depth) :
    Finishes scope (special passing global inner deeper scope form arguments)
      Value.IsLiteral := by
  cases form with
  | eval =>
      simp only [special]
      split
      case h_1 expression =>
        have forced := free.part (.forced expression)
        apply finishes_bind (inside expression forced)
        intro value literal
        exact inside value (literal.function_free forced.itself.1)
      case h_2 => exact finishes_throw rfl
  | defvar =>
      simp only [special]
      split
      case h_1 name expression =>
        apply finishes_bind (inside expression (free.part (.defined name expression)))
        intro value literal world _
        exact ⟨(World.Gains.refl _ world).write global.root name literal, literal⟩
      all_goals exact finishes_throw rfl
  | lambda =>
      have noLambda := (free.element List.mem_cons_self).itself.2.1
      exact absurd rfl noLambda
  | funcall =>
      simp only [special]
      split
      case h_1 => exact finishes_throw rfl
      case h_2 callee rest =>
        apply finishes_bind (inside callee (free.part (.callee callee rest)))
        intro value literal
        exact finishes_call passing literal rest

theorem finishes_form (passing : Passing) {depth : Nat}
    (inside : ∀ expression, expression.FunctionFreeAt (depth + 1) →
      Finishes scope (inner scope expression) Value.IsLiteral)
    {head : String} {arguments : List Value}
    (free : (Value.list (.symbol head :: arguments)).FunctionFreeAt depth) :
    Finishes scope (form passing global inner deeper scope head arguments) Value.IsLiteral := by
  unfold form
  split
  case h_1 builtin found =>
    have accepted : ∀ result,
        builtin.arity.validate builtin.name arguments.length = .ok result → True :=
      fun _ _ => trivial
    apply finishes_bind (finishes_of_except accepted fun error => Congruence.ordinary_of_validate)
    intro _ _
    rw [Builtin.name_of_find found] at free
    cases builtin with
    | special form => exact finishes_special passing inside form free
    | arithmetic operator =>
        apply finishes_arithmetic operator
        intro argument member
        exact inside argument (free.part (.operand operator member))
  case h_2 ordinary =>
    apply finishes_bind (inside _ (free.part (.head ordinary arguments)))
    intro callee literal
    exact finishes_call passing literal arguments

/-- One level, if the next one finishes on everything that stands one list deeper. -/
theorem finishes_level (passing : Passing) {depth : Nat}
    (inside : ∀ expression, expression.FunctionFreeAt (depth + 1) →
      Finishes scope (inner scope expression) Value.IsLiteral)
    {expression : Value} (free : expression.FunctionFreeAt depth) :
    Finishes scope (level passing global inner deeper scope expression) Value.IsLiteral := by
  unfold level
  split
  · exact finishes_look_up _
  · exact finishes_pure trivial
  · exact finishes_pure trivial
  · have impossible := free.itself.2.2
    contradiction
  · exact finishes_pure trivial
  · exact finishes_form passing inside free
  · exact finishes_throw rfl

end Forms

end Evaluation

/-- Evaluation is no deeper than the expression is nested, and so stays below a limit that is not
lower than the one on nesting. -/
theorem evaluate_finishes {config : Config} (deep : maxNesting ≤ config.maxDepth) (global : Scope)
    (scope : Scope) (depth : Nat) {expression : Value} (free : expression.FunctionFreeAt depth) :
    Evaluation.Finishes scope (evaluate config global depth scope expression)
      Value.IsLiteral := by
  induction depth using depth_induction config.maxDepth generalizing expression with
  | reached depth reached =>
      have bound := free.itself.1
      omega
  | below depth below next _ =>
      rw [evaluate_eq_level config global scope expression below]
      apply Evaluation.finishes_level config.passing _ free
      intro part partFree
      exact next partFree

/-- A literal, or a failure other than that the depth limit was reached. -/
def IsLiteralResult : Except RunError Value → Prop
  | .ok value => value.IsLiteral
  | .error (.evaluation error) => error.isExhausted = false
  | .error (.reading _) => True

theorem function_free_run {config : Config} (deep : maxNesting ≤ config.maxDepth)
    {scope : Scope} {source : String} (noLambda : .atom "lambda" ∉ Token.tokenize source)
    {world : World} (held : ∀ value, scope.Holds world value → value.IsLiteral) :
    IsLiteralResult (run config scope source world).1 ∧
      world.Gains Value.IsLiteral (run config scope source world).2 := by
  unfold run
  split
  case h_1 => exact ⟨trivial, .refl _ world⟩
  case h_2 expressions read =>
    have free := Value.function_free_of_read_all read noLambda
    have finishes : Evaluation.Finishes scope
        (Evaluation.lastOf (evaluate config scope 0 scope) expressions) Value.IsLiteral := by
      apply Evaluation.finishes_foldlM
      · intro expression member _
        exact evaluate_finishes deep scope scope 0 (free expression member)
      · trivial
    obtain ⟨gains, given⟩ := finishes world held
    generalize (Evaluation.lastOf (evaluate config scope 0 scope) expressions).outcome world = ended
      at gains given
    obtain ⟨error | value, after⟩ := ended
    · exact ⟨given, gains⟩
    · exact ⟨given, gains⟩

/-- Let no text of a session on a fresh root have the token `lambda`, and let no limit on depth be
lower than the limit on nesting. Then no run reaches its depth limit, however its arguments are
passed, and everything that is returned or bound is a number, text or nil. -/
theorem function_free_session_stays_below_limit (existing : World)
    (lines : List (Config × String)) (deep : ∀ line ∈ lines, maxNesting ≤ line.1.maxDepth)
    (noLambda : ∀ line ∈ lines, .atom "lambda" ∉ Token.tokenize line.2) :
    let ended := runSession existing.addRoot.2 lines existing.addRoot.1
    (∀ limit, .error (.evaluation (.stackExhausted limit)) ∉ ended.1) ∧
      (∀ value, .ok value ∈ ended.1 → value.IsLiteral) ∧
      ∀ name value, (ended.2.root existing.addRoot.2.root).find? name = some value →
        value.IsLiteral := by
  obtain ⟨results, bound⟩ := fresh_session_binds existing fun line member world held =>
    function_free_run (deep line member) (noLambda line member) held
  refine ⟨?_, ?_, bound⟩
  · intro limit failed
    have ordinary : (EvalError.stackExhausted limit).isExhausted = false := results _ failed
    contradiction
  · intro value returned
    exact results _ returned

theorem nested_definition_stays_below_limit :
    let lines : List (Config × String) :=
      [(⟨128, .unevaluated⟩, "(defvar x (eval (+ (eval (eval 1)) 2)))"),
        (⟨256, .evaluated⟩, "(x 3) (funcall lambdas)")]
    let ended := runSession World.empty.addRoot.2 lines World.empty.addRoot.1
    (∀ line ∈ lines, .atom "lambda" ∉ Token.tokenize line.2) ∧
      ∀ limit, .error (.evaluation (.stackExhausted limit)) ∉ ended.1 := by
  intro lines ended
  have deep : ∀ line ∈ lines, maxNesting ≤ line.1.maxDepth := by
    unfold lines
    simp [maxNesting]
  have noLambda : ∀ line ∈ lines, .atom "lambda" ∉ Token.tokenize line.2 := by
    decide +kernel
  exact ⟨noLambda, (function_free_session_stays_below_limit .empty lines deep noLambda).1⟩

end TinyLisp
