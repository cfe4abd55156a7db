import TinyLisp.Proofs.Evaluation.NormalForms

/-!
Calls with literal arguments.

A literal is bound as it is, whether it is evaluated before or not. So the two ways of passing
arguments agree on expressions that call functions with literals only, wherever evaluation comes to
a call. To evaluate a literal takes a level more than to bind it as written, but the body of the
function that is called takes this level too, so the limit is reached on both sides or on none.
-/

set_option autoImplicit false

namespace TinyLisp

namespace Value

/-- An expression and one that is evaluated with it, at once or when a function that it makes is
called. -/
inductive Exposes : Value → Value → Prop
  | part {expression part : Value} (evaluates : expression.Evaluates part) :
      Exposes expression part
  | lambda (params : Value) {body : List Value} {element : Value} (member : element ∈ body) :
      Exposes (.list (.symbol "lambda" :: params :: body)) element
  | body (params : List String) {body : List Value} {element : Value} (member : element ∈ body) :
      Exposes (.function params body) element

/-- An expression that calls nothing with other arguments than literals, and that is no function
without a body. -/
def CallsLiterally (expression : Value) : Prop :=
  (∀ arguments, expression.CallsWith arguments → ∀ argument ∈ arguments, argument.IsLiteral) ∧
    ∀ params, expression ≠ .function params []

/-- Whatever an expression exposes to evaluation, the expression itself included, calls with
literals only. -/
def LiteralCalling (expression : Value) : Prop :=
  ∀ position, Relation.ReflTransGen Exposes expression position → position.CallsLiterally

/-- A literal, or a function with a body that calls with literals only. -/
def IsLiteralOrCaller : Value → Prop
  | .function _ body => body ≠ [] ∧ ∀ expression ∈ body, expression.LiteralCalling
  | value => value.IsLiteral

section LiteralCalling

variable {expression : Value}

theorem literal_calling_iff :
    expression.LiteralCalling ↔
      expression.CallsLiterally ∧
        ∀ exposed, expression.Exposes exposed → exposed.LiteralCalling := by
  constructor
  · intro calling
    constructor
    · exact calling expression .refl
    · intro exposed exposes position inside
      exact calling position (.head exposes inside)
  · rintro ⟨itself, each⟩ position inside
    rcases Relation.ReflTransGen.cases_head inside with rfl | ⟨exposed, exposes, rest⟩
    · exact itself
    · exact each exposed exposes position rest

theorem literal_calling_of_inert (calls : expression.CallsLiterally)
    (inert : ∀ exposed, ¬expression.Exposes exposed) : expression.LiteralCalling := by
  apply literal_calling_iff.mpr
  constructor
  · exact calls
  · intro exposed exposes
    exact absurd exposes (inert exposed)

theorem LiteralCalling.exposed (calling : expression.LiteralCalling) {exposed : Value}
    (exposes : expression.Exposes exposed) : exposed.LiteralCalling :=
  (literal_calling_iff.mp calling).2 exposed exposes

theorem LiteralCalling.arguments (calling : expression.LiteralCalling) {arguments : List Value}
    (calls : expression.CallsWith arguments) : ∀ argument ∈ arguments, argument.IsLiteral :=
  (literal_calling_iff.mp calling).1.1 arguments calls

theorem literal_calling_symbol (name : String) : (Value.symbol name).LiteralCalling :=
  literal_calling_of_inert ⟨nofun, nofun⟩ (by rintro exposed ⟨⟨⟩⟩)

theorem literal_calling_function_iff {params : List String} {body : List Value} :
    (Value.function params body).LiteralCalling ↔
      (Value.function params body).IsLiteralOrCaller := by
  rw [literal_calling_iff]
  constructor
  · rintro ⟨⟨-, nonempty⟩, each⟩
    constructor
    · rintro rfl
      exact nonempty params rfl
    · intro element member
      exact each element (.body params member)
  · rintro ⟨nonempty, each⟩
    refine ⟨⟨nofun, ?_⟩, ?_⟩
    · rintro names ⟨⟩
      exact nonempty rfl
    · rintro exposed (⟨⟨⟩⟩ | _ | ⟨_, member⟩)
      exact each exposed member

/-- What a list headed by a symbol exposes, by what the symbol names. -/
theorem exposes_form_iff {head : String} {arguments : List Value} {exposed : Value} :
    (Value.list (.symbol head :: arguments)).Exposes exposed ↔
      match Builtin.find? head with
      | some (.arithmetic _) => exposed ∈ arguments
      | some (.special .eval) => arguments = [exposed]
      | some (.special .defvar) => ∃ name, arguments = [.symbol name, exposed]
      | some (.special .lambda) => ∃ params body, arguments = params :: body ∧ exposed ∈ body
      | some (.special .funcall) => ∃ rest, arguments = exposed :: rest
      | none => exposed = .symbol head := by
  constructor
  · generalize form : Value.list (.symbol head :: arguments) = expression
    intro exposes
    cases exposes with
    | part evaluates =>
        cases evaluates with
        | operand operator member =>
            cases form
            rw [show Builtin.find? operator.name = some (.arithmetic operator) from
              Builtin.find?_name (.arithmetic operator)]
            exact member
        | forced => cases form; rfl
        | defined name => cases form; exact ⟨name, rfl⟩
        | callee callee rest => cases form; exact ⟨rest, rfl⟩
        | head ordinary rest => cases form; rw [ordinary]
    | lambda params member =>
        cases form
        exact ⟨params, _, rfl, member⟩
    | body params member => cases form
  · split
    case h_1 operator found =>
      intro member
      rw [Builtin.name_of_find found]
      exact .part (.operand operator member)
    case h_2 found =>
      rintro rfl
      rw [Builtin.name_of_find found]
      exact .part (.forced exposed)
    case h_3 found =>
      rintro ⟨name, rfl⟩
      rw [Builtin.name_of_find found]
      exact .part (.defined name exposed)
    case h_4 found =>
      rintro ⟨params, body, rfl, member⟩
      rw [Builtin.name_of_find found]
      exact .lambda params member
    case h_5 found =>
      rintro ⟨rest, rfl⟩
      rw [Builtin.name_of_find found]
      exact .part (.callee exposed rest)
    case h_6 ordinary =>
      rintro rfl
      exact .part (.head ordinary arguments)

theorem calls_with_form_iff {head : String} {arguments passed : List Value} :
    (Value.list (.symbol head :: arguments)).CallsWith passed ↔
      match Builtin.find? head with
      | some (.special .funcall) => ∃ callee, arguments = callee :: passed
      | some _ => False
      | none => passed = arguments := by
  constructor
  · generalize form : Value.list (.symbol head :: arguments) = expression
    intro calls
    cases calls with
    | funcall callee => cases form; exact ⟨callee, rfl⟩
    | head ordinary => cases form; rw [ordinary]
  · split
    case h_1 found =>
      rintro ⟨callee, rfl⟩
      rw [Builtin.name_of_find found]
      exact .funcall callee passed
    case h_2 => exact False.elim
    case h_3 ordinary =>
      rintro rfl
      exact .head ordinary passed

/-- Evaluated are the arguments of operators and of `eval`, the value of a definition, the body of a
lambda form, and the function of a call; what is passed to a function are literals. -/
theorem literal_calling_form_iff {head : String} {arguments : List Value} :
    (Value.list (.symbol head :: arguments)).LiteralCalling ↔
      match Builtin.find? head with
      | some (.arithmetic _) => ∀ argument ∈ arguments, argument.LiteralCalling
      | some (.special .eval) => ∀ forced, arguments = [forced] → forced.LiteralCalling
      | some (.special .defvar) =>
          ∀ name defined, arguments = [.symbol name, defined] → defined.LiteralCalling
      | some (.special .lambda) =>
          ∀ params body, arguments = params :: body → ∀ element ∈ body, element.LiteralCalling
      | some (.special .funcall) =>
          ∀ callee rest, arguments = callee :: rest →
            callee.LiteralCalling ∧ ∀ argument ∈ rest, argument.IsLiteral
      | none => ∀ argument ∈ arguments, argument.IsLiteral := by
  rw [literal_calling_iff, CallsLiterally]
  simp only [exposes_form_iff, calls_with_form_iff]
  cases Builtin.find? head with
  | none => simp [literal_calling_symbol]
  | some builtin =>
      cases builtin with
      | arithmetic operator => simp
      | special form =>
          cases form with
          | eval => simp
          | defvar => grind
          | lambda => grind
          | funcall => grind

theorem IsLiteral.is_literal_or_caller {value : Value} (literal : value.IsLiteral) :
    value.IsLiteralOrCaller := by
  cases value with
  | function params body => contradiction
  | _ => exact literal

theorem IsLiteralOrCaller.literal_calling {value : Value} (bound : value.IsLiteralOrCaller) :
    value.LiteralCalling := by
  cases value with
  | symbol name => contradiction
  | text contents => exact literal_calling_of_inert ⟨nofun, nofun⟩ (by rintro exposed ⟨⟨⟩⟩)
  | number number => exact literal_calling_of_inert ⟨nofun, nofun⟩ (by rintro exposed ⟨⟨⟩⟩)
  | function params body => exact literal_calling_function_iff.mpr bound
  | list elements =>
      cases elements with
      | nil => exact literal_calling_of_inert ⟨nofun, nofun⟩ (by rintro exposed ⟨⟨⟩⟩)
      | cons head arguments => contradiction

end LiteralCalling

end Value

/-- Expressions that call with literals only give literals, and functions that call with literals
only. -/
def Discipline.literalCalling : Discipline where
  Expression := Value.LiteralCalling
  Given := Value.IsLiteralOrCaller
  part := fun calling evaluates => calling.exposed (.part evaluates)
  again := fun bound => bound.literal_calling
  text := fun _ => trivial
  number := fun _ => trivial
  nil := trivial
  function := Value.literal_calling_function_iff.mp
  lambda := by
    intro arguments function calling made
    obtain ⟨params, names, first, rest, rfl, -, rfl⟩ := Evaluation.parts_of_make_function made
    constructor
    · exact List.cons_ne_nil first rest
    · intro expression member
      exact calling.exposed (.lambda (.list params) member)

namespace Evaluation

/-- Arguments that are their own values are passed as they are in both ways. -/
theorem passed_of_self_evaluating (passing : Passing) {evaluate : Value → Evaluation Value}
    {arguments : List Value} (self : ∀ argument ∈ arguments, evaluate argument = pure argument) :
    passed passing evaluate arguments = pure arguments := by
  cases passing with
  | unevaluated => rfl
  | evaluated =>
      rw [passed]
      induction arguments with
      | nil => rfl
      | cons argument arguments ih =>
          obtain ⟨first, rest⟩ := List.forall_mem_cons.mp self
          rw [List.mapM_cons, first, ih rest]
          rfl

/-- Where every evaluation fails, a call fails alike before its body and in it. -/
theorem call_of_failing (passing : Passing) {inner : Evaluator} {error : EvalError}
    (fails : ∀ scope expression, inner scope expression = throw error) (scope : Scope)
    {params : List String} {body arguments : List Value} (nonempty : body ≠ [])
    (accepted : params.length = arguments.length) :
    call passing inner scope (.function params body) arguments = throw error := by
  obtain ⟨first, rest, rfl⟩ := List.exists_cons_of_ne_nil nonempty
  have inBody : ∀ frame, lastOf (inner (scope.push frame)) (first :: rest) = throw error := by
    intro frame
    rw [lastOf, List.foldlM_cons, fails]
    rfl
  simp only [call, if_pos accepted, inBody]
  cases passing with
  | unevaluated => rfl
  | evaluated =>
      cases arguments with
      | nil => rfl
      | cons argument arguments =>
          rw [passed, List.mapM_cons, fails]
          rfl

end Evaluation

section

variable {global : Scope} {start : World} {origin : Nat}

theorem Discipline.literal_calls {initial : literalCalling.Binds start origin} {limit depth : Nat}
    (evaluators : (literalCalling.simulation global initial).Evaluators
      (evaluate ⟨limit, .unevaluated⟩ global depth) (evaluate ⟨limit, .evaluated⟩ global depth)) :
    (literalCalling.simulation global initial).Calls .unevaluated .evaluated
      (evaluate ⟨limit, .unevaluated⟩ global depth)
      (evaluate ⟨limit, .evaluated⟩ global depth) := by
  rintro scope _ ⟨rfl, root, frames⟩ expression arguments calling calls callee given
  have literals := Value.LiteralCalling.arguments calling calls
  by_cases below : depth < limit
  · have self : ∀ passing, ∀ argument ∈ arguments,
        evaluate ⟨limit, passing⟩ global depth scope argument = pure argument := by
      intro passing argument member
      exact evaluate_normal (literals argument member).is_normal _ global below scope
    have passed : (literalCalling.simulation global initial).Agree
        (fun values => ∀ value ∈ values, value.IsLiteralOrCaller)
        (Evaluation.passed .unevaluated (evaluate ⟨limit, .unevaluated⟩ global depth scope)
          arguments)
        (Evaluation.passed .evaluated (evaluate ⟨limit, .evaluated⟩ global depth scope)
          arguments) := by
      rw [Evaluation.passed_of_self_evaluating _ (self .unevaluated),
        Evaluation.passed_of_self_evaluating _ (self .evaluated)]
      apply Simulation.agree_pure
      intro argument member
      exact (literals argument member).is_literal_or_caller
    apply agree_call evaluators root frames passed
    rintro params body rfl
    exact given.2
  -- At the limit one side fails at its first argument and the other at the first expression of the
  -- body, which is why a body has to be there.
  · have fails : ∀ passing scope expression,
        evaluate ⟨limit, passing⟩ global depth scope expression =
          throw (.stackExhausted limit) := by
      intro passing scope expression
      exact evaluate_eq_throw _ global scope expression (Nat.not_lt.mp below)
    cases callee with
    | function params body =>
        by_cases accepted : params.length = arguments.length
        · rw [Evaluation.call_of_failing _ (fails .unevaluated) scope given.1 accepted,
            Evaluation.call_of_failing _ (fails .evaluated) scope given.1 accepted]
          exact Simulation.agree_throw _
        · simp only [Evaluation.call, if_neg accepted]
          exact Simulation.agree_throw _
    | _ => exact Simulation.agree_throw _

end

/-- Where literals and literal-calling functions are bound, it makes no difference to a
literal-calling expression whether arguments are evaluated before they are bound: the outcome and
the world after it are the same at every depth and under every limit. -/
theorem passing_makes_no_difference_to_literals (limit : Nat) (global : Scope) (depth : Nat)
    {scope : Scope} {expression : Value} (calling : expression.LiteralCalling) {world : World}
    (held : ∀ value, scope.Holds world value → value.IsLiteralOrCaller) :
    (evaluate ⟨limit, .unevaluated⟩ global depth scope expression).outcome world =
      (evaluate ⟨limit, .evaluated⟩ global depth scope expression).outcome world := by
  have initial : Discipline.literalCalling.Binds world scope.root := by
    intro name value found
    exact held value (Scope.holds_of_root found)
  have evaluators : (Discipline.literalCalling.simulation global initial).Evaluators
      (evaluate ⟨limit, .unevaluated⟩ global depth)
      (evaluate ⟨limit, .evaluated⟩ global depth) := by
    have sameLimit :
        (Config.mk limit .evaluated).maxDepth = (Config.mk limit .unevaluated).maxDepth := rfl
    apply Simulation.agree_evaluate sameLimit
    intro depth evaluators
    exact Discipline.literal_calls evaluators
  exact (Discipline.ended_of_agree
    (evaluators ⟨rfl, rfl, .of_holds held⟩ expression calling)).1

theorem exhausted_alike_on_literal_argument :
    let function := Value.function ["x"] [.list [.symbol "eval", .symbol "x"]]
    let world : World := ⟨[.ofList [("f", function)]]⟩
    let expression := Value.list [.symbol "f", .text "a"]
    function.IsLiteralOrCaller ∧ expression.LiteralCalling ∧
      (evaluate ⟨2, .unevaluated⟩ ⟨[], 0⟩ 0 ⟨[], 0⟩ expression).outcome world =
        (evaluate ⟨2, .evaluated⟩ ⟨[], 0⟩ 0 ⟨[], 0⟩ expression).outcome world ∧
      ((evaluate ⟨2, .evaluated⟩ ⟨[], 0⟩ 0 ⟨[], 0⟩ expression).outcome world).1 =
        .error (.stackExhausted 2) := by
  intro function world expression
  have eval : Builtin.find? "eval" = some (.special .eval) := by decide
  have ordinary : Builtin.find? "f" = none := by decide
  have caller : function.IsLiteralOrCaller := by
    simp [function, Value.IsLiteralOrCaller, Value.literal_calling_form_iff, eval,
      Value.literal_calling_symbol]
  have calling : expression.LiteralCalling := by
    simp [expression, Value.literal_calling_form_iff, ordinary, Value.IsLiteral]
  have held : ∀ value, Scope.Holds ⟨[], 0⟩ world value → value.IsLiteralOrCaller := by
    intro value holds
    rw [Scope.eq_of_holds_single holds]
    exact caller
  refine ⟨caller, calling, ?_, ?_⟩
  · exact passing_makes_no_difference_to_literals 2 ⟨[], 0⟩ 0 calling held
  · unfold expression world function
    cbv

end TinyLisp
