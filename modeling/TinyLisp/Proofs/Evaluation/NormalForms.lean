import TinyLisp.Proofs.Evaluation.DepthCounter
import TinyLisp.Proofs.Evaluation.Discipline
import TinyLisp.Proofs.Session.Run

/-!
Normal forms: the values that are their own values.

Where arguments are evaluated before they are bound, nothing that is left to evaluate is ever bound,
so evaluation gives normal forms only. To evaluate a normal form once more is then to do nothing,
except that it takes place one level deeper.
-/

set_option autoImplicit false

namespace TinyLisp

namespace Value

/-- Numbers, text and nil. -/
def IsLiteral : Value → Prop
  | .number _ => True
  | .text _ => True
  | .list [] => True
  | _ => False

/-- Literals and functions. -/
def IsNormal : Value → Prop
  | .function _ _ => True
  | value => value.IsLiteral

theorem IsLiteral.is_normal {value : Value} (literal : value.IsLiteral) : value.IsNormal := by
  cases value with
  | function params body => trivial
  | _ => exact literal

end Value

/-- Below the limit, a normal form is its own value. -/
theorem evaluate_normal {value : Value} (normal : value.IsNormal) (config : Config)
    (global : Scope) {depth : Nat} (below : depth < config.maxDepth) (scope : Scope) :
    evaluate config global depth scope value = pure value := by
  rw [evaluate_eq_level config global scope value below]
  cases value with
  | symbol name => contradiction
  | text contents => rfl
  | number number => rfl
  | function params body => rfl
  | list elements =>
      cases elements with
      | nil => rfl
      | cons head arguments => contradiction

/-- Any expression is evaluated, and normal forms are given. -/
def Discipline.eager : Discipline where
  Expression _ := True
  Given := Value.IsNormal
  part := fun _ _ => trivial
  again := fun _ => trivial
  text := fun _ => trivial
  number := fun _ => trivial
  nil := trivial
  function := fun _ => trivial
  lambda := by
    intro arguments function _ made
    obtain ⟨params, names, first, rest, -, -, rfl⟩ := Evaluation.parts_of_make_function made
    trivial

section Eager

variable {global : Scope} {start : World} {origin : Nat}

theorem Discipline.eager_calls {initial : eager.Binds start origin} {left right : Evaluator}
    (evaluators : (eager.simulation global initial).Evaluators left right) :
    (eager.simulation global initial).Calls .evaluated .evaluated left right := by
  rintro scope _ ⟨rfl, root, frames⟩ expression arguments _ _ callee _
  have passed : (eager.simulation global initial).Agree
      (fun values => ∀ value ∈ values, value.IsNormal)
      (Evaluation.passed .evaluated (left scope) arguments)
      (Evaluation.passed .evaluated (right scope) arguments) := by
    apply Simulation.agree_mapM
    intro argument _
    exact evaluators ⟨rfl, root, frames⟩ argument trivial
  apply agree_call evaluators root frames passed
  intros
  trivial

theorem Discipline.eager_evaluate (initial : eager.Binds start origin) {config : Config}
    (evaluated : config.passing = .evaluated) (depth : Nat) :
    (eager.simulation global initial).Evaluators (evaluate config global depth)
      (evaluate config global depth) := by
  apply Simulation.agree_evaluate rfl
  intro depth evaluators
  rw [evaluated]
  exact eager_calls evaluators

variable {config : Config} {scope : Scope}

theorem eager_initial {world : World} (held : ∀ value, scope.Holds world value → value.IsNormal) :
    Discipline.eager.Binds world scope.root := by
  intro name value found
  exact held value (Scope.holds_of_root found)

theorem eager_agree (global : Scope) (evaluated : config.passing = .evaluated) (depth : Nat)
    {world : World} (held : ∀ value, scope.Holds world value → value.IsNormal)
    (expression : Value) :
    (Discipline.eager.simulation global (eager_initial held)).Agree Value.IsNormal
      (evaluate config global depth scope expression)
      (evaluate config global depth scope expression) :=
  Discipline.eager_evaluate (eager_initial held) evaluated depth ⟨rfl, rfl, .of_holds held⟩
    expression trivial

/-- One expression after the other, from a scope that binds normal forms. -/
theorem eager_last_of_is_normal (global : Scope) (evaluated : config.passing = .evaluated)
    (depth : Nat) {world : World} (held : ∀ value, scope.Holds world value → value.IsNormal)
    (expressions : List Value) :
    let ended :=
      (Evaluation.lastOf (evaluate config global depth scope) expressions).outcome world
    (∀ value, ended.1 = .ok value → value.IsNormal) ∧ world.Gains Value.IsNormal ended.2 := by
  obtain ⟨-, gains, normal⟩ := Discipline.ended_of_agree (Simulation.agree_last_of
    fun expression (_ : expression ∈ expressions) =>
      eager_agree global evaluated depth held expression)
  exact ⟨normal, gains⟩

/-- Several expressions, each for its own value. -/
theorem eager_values_are_normal (global : Scope) (evaluated : config.passing = .evaluated)
    (depth : Nat) {world : World} (held : ∀ value, scope.Holds world value → value.IsNormal)
    (expressions : List Value) :
    let ended := (expressions.mapM (evaluate config global depth scope)).outcome world
    (∀ values, ended.1 = .ok values → ∀ value ∈ values, value.IsNormal) ∧
      world.Gains Value.IsNormal ended.2 := by
  obtain ⟨-, gains, normal⟩ := Discipline.ended_of_agree (Simulation.agree_mapM
    fun expression (_ : expression ∈ expressions) =>
      eager_agree global evaluated depth held expression)
  exact ⟨normal, gains⟩

theorem eager_numbers_gain (global : Scope) (evaluated : config.passing = .evaluated)
    (depth : Nat) {world : World} (held : ∀ value, scope.Holds world value → value.IsNormal)
    (operator : Operator) (arguments : List Value) :
    world.Gains Value.IsNormal ((arguments.mapM (Evaluation.number operator
      (evaluate config global depth scope))).outcome world).2 :=
  (Discipline.ended_of_agree (Simulation.agree_numbers operator
    fun argument (_ : argument ∈ arguments) =>
      eager_agree global evaluated depth held argument)).2.1

theorem eager_evaluate_is_normal (global : Scope) (evaluated : config.passing = .evaluated)
    (depth : Nat) {world : World} (held : ∀ value, scope.Holds world value → value.IsNormal)
    (expression : Value) :
    let ended := (evaluate config global depth scope expression).outcome world
    (∀ value, ended.1 = .ok value → value.IsNormal) ∧ world.Gains Value.IsNormal ended.2 := by
  have single : Evaluation.lastOf (evaluate config global depth scope) [expression] =
      evaluate config global depth scope expression := by
    exact bind_pure _
  rw [← single]
  exact eager_last_of_is_normal global evaluated depth held [expression]

end Eager

namespace Invocation

def scope : Invocation → Scope
  | .evaluate _ scope _ _ => scope
  | .numbers _ _ scope _ _ => scope
  | .apply _ scope _ _ _ => scope

def world : Invocation → World
  | .evaluate _ _ _ world => world
  | .numbers _ _ _ _ world => world
  | .apply _ _ _ _ world => world

/-- A call that starts where normal forms only are bound. -/
def IsSettled (invocation : Invocation) : Prop :=
  ∀ value, invocation.scope.Holds invocation.world value → value.IsNormal

end Invocation

section Reached

variable {config : Config} {global : Scope} {caller invoked : Invocation}

theorem settled_after {scope : Scope} {world between : World} {Result : Type}
    {computation : Evaluation Result} {ended : Except EvalError Result}
    (held : ∀ value, scope.Holds world value → value.IsNormal)
    (gains : world.Gains Value.IsNormal (computation.outcome world).2)
    (reached : computation.outcome world = (ended, between)) :
    ∀ value, scope.Holds between value → value.IsNormal := by
  rw [reached] at gains
  exact Scope.holds_after_gains held gains

/-- A call that comes after others starts in the world that these have left. -/
theorem settled_of_invokes (evaluated : config.passing = .evaluated)
    (invokes : Invokes config global caller invoked) (settled : caller.IsSettled) :
    invoked.IsSettled := by
  cases invokes with
  | evalResult _ _ first | funcallApply _ _ first | headApply _ _ first =>
      exact settled_after settled (eager_evaluate_is_normal global evaluated _ settled _).2 first
  | number earlier later before =>
      exact settled_after settled (eager_numbers_gain global evaluated _ settled _ earlier) before
  | argument earlier later _ _ before =>
      exact settled_after settled (eager_values_are_normal global evaluated _ settled earlier).2
        before
  | @body depth scope params arguments values expression result world entered _ earlier later _
      passed before =>
      rw [evaluated] at passed
      obtain ⟨normal, gains⟩ := eager_values_are_normal global evaluated (depth + 1) settled arguments
      have entering := settled_after settled gains passed
      have inside : ∀ value, (scope.push (.ofList (params.zip values))).Holds entered value →
          value.IsNormal := by
        intro value held
        rcases Scope.holds_push held with ⟨name, bound⟩ | around
        · have member := (List.of_mem_zip (Bindings.mem_of_find_of_list bound)).2
          exact normal values (congrArg Prod.fst passed) value member
        · exact entering value around
      exact settled_after inside (eager_last_of_is_normal global evaluated _ inside earlier).2 before
  | _ => exact settled

theorem settled_of_reaches (evaluated : config.passing = .evaluated)
    (reaches : Reaches config global caller invoked) (settled : caller.IsSettled) :
    invoked.IsSettled := by
  induction reaches with
  | single invokes => exact settled_of_invokes evaluated invokes settled
  | tail _ invokes ih => exact settled_of_invokes evaluated invokes ih

end Reached

theorem evaluate_eval_form (config : Config) (global : Scope) {depth : Nat}
    (below : depth < config.maxDepth) (scope : Scope) (expression : Value) :
    evaluate config global depth scope (.list [.symbol "eval", expression]) = (do
      let value ← evaluate config global (depth + 1) scope expression
      evaluate config global (depth + 1) scope value) := by
  have eval : Builtin.find? "eval" = some (.special .eval) := by decide
  rw [evaluate_eq_level config global scope _ below]
  simp only [Evaluation.level, Evaluation.form, eval]
  rfl

/-- Where evaluation gives normal forms, the second evaluation of an `eval` form finds nothing to
do. -/
theorem outcome_eval_form {config : Config} {global : Scope} {depth : Nat} {scope : Scope}
    {expression : Value} {world : World}
    (normal : ∀ value,
      ((evaluate config global depth scope expression).outcome world).1 = .ok value →
        value.IsNormal) :
    (evaluate (config.withMaxDepth (config.maxDepth + 1)) global depth scope
        (.list [.symbol "eval", expression])).outcome world =
      Evaluation.raised 1 ((evaluate config global depth scope expression).outcome world) := by
  by_cases below : depth < config.maxDepth + 1
  · rw [evaluate_eval_form (config.withMaxDepth (config.maxDepth + 1)) global below,
      Evaluation.outcome_bind, outcome_evaluate_raised config global depth 1]
    rcases ended : (evaluate config global depth scope expression).outcome world
      with ⟨error | value, after⟩
    · rfl
    · rw [ended] at normal
      have inside : depth < config.maxDepth := by
        by_contra reached
        rw [evaluate_eq_throw config global scope expression (Nat.not_lt.mp reached)] at ended
        cases ended
      have again := evaluate_normal (normal value rfl)
        (config.withMaxDepth (config.maxDepth + 1)) global (Nat.succ_lt_succ inside) scope
      exact congrArg (·.outcome after) again
  · have reached : config.maxDepth + 1 ≤ depth := Nat.not_lt.mp below
    rw [evaluate_eq_throw (config.withMaxDepth (config.maxDepth + 1)) global _ _ reached,
      evaluate_eq_throw config global _ _ (Nat.le_of_succ_le reached)]
    rfl

/-- A fresh root holds nothing. -/
theorem World.fresh_holds_nothing (world : World) {value : Value} :
    ¬world.addRoot.2.Holds world.addRoot.1 value := by
  rintro ⟨bindings, member, name, found⟩
  rw [List.mem_singleton.mp member, World.root_add_root] at found
  contradiction

section Session

variable {Allowed : Value → Prop} {Ends : Except RunError Value → Prop}

/-- A session gains what its runs gain, and its runs end as they do where allowed values are
held. -/
theorem session_gains {scope : Scope} {lines : List (Config × String)}
    (each : ∀ line ∈ lines, ∀ world, (∀ value, scope.Holds world value → Allowed value) →
      Ends (run line.1 scope line.2 world).1 ∧
        world.Gains Allowed (run line.1 scope line.2 world).2)
    {world : World} (held : ∀ value, scope.Holds world value → Allowed value) :
    (∀ result ∈ (runSession scope lines world).1, Ends result) ∧
      world.Gains Allowed (runSession scope lines world).2 := by
  induction lines generalizing world with
  | nil => exact ⟨List.forall_mem_nil _, .refl _ world⟩
  | cons line lines ih =>
      obtain ⟨lineKeeps, restKeep⟩ := List.forall_mem_cons.mp each
      obtain ⟨lineEnds, gains⟩ := lineKeeps world held
      obtain ⟨restEnd, restGains⟩ := ih restKeep (Scope.holds_after_gains held gains)
      exact ⟨List.forall_mem_cons.mpr ⟨lineEnds, restEnd⟩, gains.trans restGains⟩

/-- A session on a fresh root binds only what its runs gain. -/
theorem fresh_session_binds (existing : World) {lines : List (Config × String)}
    (each : ∀ line ∈ lines, ∀ world,
      (∀ value, existing.addRoot.2.Holds world value → Allowed value) →
        Ends (run line.1 existing.addRoot.2 line.2 world).1 ∧
          world.Gains Allowed (run line.1 existing.addRoot.2 line.2 world).2) :
    let ended := runSession existing.addRoot.2 lines existing.addRoot.1
    (∀ result ∈ ended.1, Ends result) ∧
      ∀ name value, (ended.2.root existing.addRoot.2.root).find? name = some value →
        Allowed value := by
  have fresh : ∀ value, existing.addRoot.2.Holds existing.addRoot.1 value → Allowed value := by
    intro value held
    exact absurd held existing.fresh_holds_nothing
  obtain ⟨ends, gains⟩ := session_gains each fresh
  constructor
  · exact ends
  · intro name value found
    exact Scope.holds_after_gains fresh gains value (Scope.holds_of_root found)

end Session

/-- A normal form, or a failure. -/
def IsNormalResult (result : Except RunError Value) : Prop :=
  ∀ value, result = .ok value → value.IsNormal

theorem eager_run_is_normal {config : Config} (evaluated : config.passing = .evaluated)
    {scope : Scope} (source : String) {world : World}
    (held : ∀ value, scope.Holds world value → value.IsNormal) :
    IsNormalResult (run config scope source world).1 ∧
      world.Gains Value.IsNormal (run config scope source world).2 := by
  unfold run
  split
  case h_1 =>
    constructor
    · nofun
    · exact .refl _ world
  case h_2 expressions _ =>
    obtain ⟨normal, gains⟩ := eager_last_of_is_normal scope evaluated 0 held expressions
    generalize (Evaluation.lastOf (evaluate config scope 0 scope) expressions).outcome world = ended
      at normal gains
    obtain ⟨error | value, after⟩ := ended
    · exact ⟨nofun, gains⟩
    · constructor
      · intro result returned
        cases returned
        exact normal value rfl
      · exact gains

/-- Let arguments be evaluated before they are bound, and let only normal forms be bound around an
evaluation. Then what it gives is a normal form, and so is everything it writes, even if it fails
later. The same holds of every evaluation that is reached on the way, and with it of what a
definition writes and a later one writes over. To evaluate the value once more changes neither the
outcome nor the world after it, if the limit is one level higher. So no session on a fresh root, in
which arguments are evaluated throughout, ever returns or binds anything but normal forms. -/
theorem eager_evaluation_gives_normal_forms :
    (∀ (config : Config) (global : Scope) (depth : Nat) (scope : Scope) (expression : Value)
        (world : World), config.passing = .evaluated →
      (∀ value, scope.Holds world value → value.IsNormal) →
        let ended := (evaluate config global depth scope expression).outcome world
        (∀ value, ended.1 = .ok value → value.IsNormal) ∧
          (∀ root name value, (ended.2.root root).find? name = some value →
            (world.root root).find? name = some value ∨ value.IsNormal) ∧
          (∀ inner innerScope part between value after,
            Reaches config global (.evaluate depth scope expression world)
              (.evaluate inner innerScope part between) →
            (evaluate config global inner innerScope part).outcome between = (.ok value, after) →
              value.IsNormal) ∧
          (evaluate (config.withMaxDepth (config.maxDepth + 1)) global depth scope
            (.list [.symbol "eval", expression])).outcome world = Evaluation.raised 1 ended) ∧
    (∀ (existing : World) (lines : List (Config × String)),
      (∀ line ∈ lines, line.1.passing = .evaluated) →
        let ended := runSession existing.addRoot.2 lines existing.addRoot.1
        (∀ value, .ok value ∈ ended.1 → value.IsNormal) ∧
          ∀ name value, (ended.2.root existing.addRoot.2.root).find? name = some value →
            value.IsNormal) := by
  constructor
  · intro config global depth scope expression world evaluated held
    obtain ⟨normal, gains⟩ := eager_evaluate_is_normal global evaluated depth held expression
    refine ⟨normal, gains, ?_, outcome_eval_form normal⟩
    intro inner innerScope part between value after reaches given
    have settled : (Invocation.evaluate depth scope expression world).IsSettled := held
    have reached := settled_of_reaches evaluated reaches settled
    exact (eager_evaluate_is_normal global evaluated inner reached part).1 value
      (congrArg Prod.fst given)
  · intro existing lines evaluated
    obtain ⟨normal, bound⟩ := fresh_session_binds existing fun line member world held =>
      eager_run_is_normal (evaluated line member) line.2 held
    constructor
    · intro value returned
      exact normal _ returned value rfl
    · exact bound

theorem eager_definition_and_session_are_normal :
    let expression := Value.list [.symbol "defvar", .symbol "y", .symbol "x"]
    let world : World := ⟨[.ofList [("x", .text "a")]]⟩
    let ended := (evaluate ⟨2, .evaluated⟩ ⟨[], 0⟩ 0 ⟨[], 0⟩ expression).outcome world
    let session := runSession World.empty.addRoot.2
      [(⟨256, .evaluated⟩, "(defvar f (lambda (x) x)) (f (f \"a\"))")] World.empty.addRoot.1
    ended.1 = .ok (.text "a") ∧
      (evaluate ⟨3, .evaluated⟩ ⟨[], 0⟩ 0 ⟨[], 0⟩ (.list [.symbol "eval", expression])).outcome
        world = Evaluation.raised 1 ended ∧
      ∀ value, .ok value ∈ session.1 → value.IsNormal := by
  intro expression world ended session
  have given : ended.1 = .ok (.text "a") := by
    unfold ended expression world
    cbv
  have held : ∀ value, Scope.Holds ⟨[], 0⟩ world value → value.IsNormal := by
    intro value holds
    rw [Scope.eq_of_holds_single holds]
    trivial
  refine ⟨given, ?_, ?_⟩
  · exact (eager_evaluation_gives_normal_forms.1 ⟨2, .evaluated⟩ ⟨[], 0⟩ 0 ⟨[], 0⟩ expression world
      rfl held).2.2.2
  · exact (eager_evaluation_gives_normal_forms.2 .empty _
      (List.forall_mem_singleton.mpr rfl)).1

end TinyLisp
