import TinyLisp.Proofs.Evaluation.Calls
import TinyLisp.Proofs.Evaluation.Interference
import TinyLisp.Proofs.Evaluation.NormalForms
import TinyLisp.Proofs.Session.WrittenFunctions

/-!
Forcing an argument.

Where arguments are passed as they are written, a function that evaluates its one parameter and the
value of this evaluates its argument, in a frame of its own. The frame shows nothing but the
parameter. If this is a name that occurs nowhere, no evaluation can notice the frame, and under a
limit that is three levels higher the argument ends as it would have ended outside of the call.
-/

set_option autoImplicit false

namespace TinyLisp

namespace Value

def Mentions (value : Value) (name : String) : Prop :=
  ∃ depth, value.HasNode depth (.symbol name)

section Mentions

variable {name : String}

@[simp] theorem mentions_symbol_iff {other : String} :
    (Value.symbol other).Mentions name ↔ other = name := by
  constructor
  · rintro ⟨depth, inside⟩
    cases inside
    rfl
  · intro same
    subst same
    exact ⟨0, .root _⟩

@[simp] theorem not_mentions_text (contents : String) : ¬(Value.text contents).Mentions name :=
  nofun

@[simp] theorem not_mentions_number (number : Float) : ¬(Value.number number).Mentions name :=
  nofun

@[simp] theorem mentions_list_iff {elements : List Value} :
    (Value.list elements).Mentions name ↔ ∃ element ∈ elements, element.Mentions name := by
  constructor
  · rintro ⟨depth, inside⟩
    cases inside with
    | element member inside => exact ⟨_, member, _, inside⟩
  · rintro ⟨element, member, depth, inside⟩
    exact ⟨depth + 1, .element member inside⟩

@[simp] theorem mentions_function_iff {params : List String} {body : List Value} :
    (Value.function params body).Mentions name ↔ ∃ element ∈ body, element.Mentions name := by
  constructor
  · rintro ⟨depth, inside⟩
    cases inside with
    | body member inside => exact ⟨_, member, _, inside⟩
  · rintro ⟨element, member, depth, inside⟩
    exact ⟨depth + 1, .body member inside⟩

/-- A symbol that does not occur at all does not occur outside of the heads of lists. -/
theorem only_heads_of_not_mentions {value : Value} (absent : ¬value.Mentions name) :
    value.OnlyHeads name := by
  induction value with
  | symbol other => exact only_heads_symbol_iff.mpr (mt mentions_symbol_iff.mpr absent)
  | text contents => exact only_heads_text contents
  | number number => exact only_heads_number number
  | list elements ih =>
      have each : ∀ element ∈ elements, element.OnlyHeads name := by
        intro element member
        apply ih element member
        intro mentions
        exact absent (mentions_list_iff.mpr ⟨element, member, mentions⟩)
      cases elements with
      | nil => exact only_heads_nil
      | cons head arguments =>
          have parts := List.forall_mem_cons.mp each
          exact only_heads_list_iff.mpr ⟨.inr parts.1, parts.2⟩
  | function params body ih =>
      rw [only_heads_function_iff]
      intro expression member
      apply ih expression member
      intro mentions
      exact absent (mentions_function_iff.mpr ⟨expression, member, mentions⟩)

end Mentions

end Value

/-- Evaluation over one and the same world, from scopes that differ in the binding of a name which
is nowhere exposed. -/
def Simulation.unnoticed (hidden : String) (origin : Nat) (global : Scope) :
    Simulation global global :=
  let concealing := Simulation.concealing hidden origin (rfl : global.root = global.root)
  { concealing with
    -- Concealing alone leaves open what becomes of the name itself in the roots.
    Worlds := fun left right => left = right ∧ ConcealingWorlds hidden origin left right
    lookUp := fun scopes worlds onlyHeads => concealing.lookUp scopes worlds.2 onlyHeads
    define := by
      intro left right name expression value worlds evaluated given
      obtain ⟨rfl, concealed⟩ := worlds
      exact ⟨rfl, concealing.define concealed evaluated given⟩ }

theorem Simulation.unnoticed_evaluate (hidden : String) (origin : Nat) (global : Scope)
    (config : Config) (depth : Nat) :
    (unnoticed hidden origin global).Evaluators (evaluate config global depth)
      (evaluate config global depth) := by
  apply agree_evaluate rfl
  intro depth evaluators
  apply calls_of_evaluators config.passing evaluators
  · intro leftScope rightScope scopes params values onlyHeads
    exact ConcealingScopes.push scopes params onlyHeads
  · intro expression arguments onlyHeads calls argument member
    have argumentOnlyHeads := Value.OnlyHeads.calls_with onlyHeads calls argument member
    exact ⟨argumentOnlyHeads, argumentOnlyHeads⟩
  · intro params body onlyHeads
    exact Value.only_heads_function_iff.mp onlyHeads

section

variable {scope : Scope} {world : World} {expression : Value} {name : String}

/-- A frame that binds only a name which is nowhere exposed makes no difference. -/
theorem outcome_under_unnoticed_frame (config : Config) (global : Scope) (depth : Nat)
    (onlyHeads : expression.OnlyHeads name)
    (held : ∀ value, scope.Holds world value → value.OnlyHeads name) (bound : Value) :
    (evaluate config global depth (scope.push (.ofList [(name, bound)])) expression).outcome world =
      (evaluate config global depth scope expression).outcome world := by
  have worlds : ConcealingWorlds name scope.root world world := by
    constructor
    · intro index other _
      rfl
    · intro other value _ found
      exact held value (Scope.holds_of_root found)
  have scopes : ConcealingScopes name scope.root scope (scope.push (.ofList [(name, bound)])) := by
    refine ⟨rfl, rfl, ?_, ?_⟩
    · intro other different
      have unbound : (Bindings.ofList [(name, bound)]).find? other = none := by
        simp [Bindings.ofList, Bindings.insertAll, different]
      rw [Scope.in_frames_push, unbound, Option.none_or]
    · intro other value _ found
      exact Scope.FramesShow.of_holds held other value found
  obtain ⟨sameWorld, sameResult, -⟩ := Simulation.unnoticed_evaluate name scope.root global config
    depth scopes expression onlyHeads world world ⟨rfl, worlds⟩
  exact (Prod.ext sameResult sameWorld.1).symm

end

theorem Evaluation.call_single (inner : Evaluator) (scope : Scope) (name : String)
    (body argument : Value) :
    call .unevaluated inner scope (.function [name] [body]) [argument] =
      inner (scope.push (.ofList [(name, argument)])) body :=
  bind_pure (inner (scope.push (.ofList [(name, argument)])) body)

/-- A call of the function that evaluates its one argument. -/
def Value.forced (name : String) (expression : Value) : Value :=
  .list [.symbol "funcall", .lambdaForm [name] [.list [.symbol "eval", .symbol name]], expression]

section

variable {config : Config} {global scope : Scope} {depth : Nat} {name : String}
  {expression : Value}

/-- The call takes place two levels below, also where there is no room for it. -/
theorem evaluate_forced (lazy : config.passing = .unevaluated) :
    evaluate config global depth scope (.forced name expression) =
      evaluate config global (depth + 2) (scope.push (.ofList [(name, expression)]))
        (.list [.symbol "eval", .symbol name]) := by
  by_cases below : depth + 1 < config.maxDepth
  · have callee := evaluate_lambda_form config global below scope (List.nodup_singleton name)
      (List.cons_ne_nil (.list [.symbol "eval", .symbol name]) [])
    rw [Value.forced, evaluate_funcall_form config global (Nat.lt_of_succ_lt below), callee,
      pure_bind, lazy, Evaluation.call_single]
  · have reached : config.maxDepth ≤ depth + 1 := Nat.not_lt.mp below
    rw [evaluate_eq_throw config global _ _ (Nat.le_succ_of_le reached)]
    by_cases inside : depth < config.maxDepth
    · rw [Value.forced, evaluate_funcall_form config global inside,
        evaluate_eq_throw config global _ _ reached]
      rfl
    · exact evaluate_eq_throw config global _ _ (Nat.not_lt.mp inside)

theorem outcome_eval_name {world : World} (bound : scope.get world name = .ok expression) :
    (evaluate config global depth scope (.list [.symbol "eval", .symbol name])).outcome world =
      (evaluate config global (depth + 1) scope expression).outcome world := by
  by_cases below : depth < config.maxDepth
  · rw [evaluate_eval_form config global below, Evaluation.outcome_bind]
    by_cases inside : depth + 1 < config.maxDepth
    · rw [evaluate_symbol config global inside, Evaluation.outcome_look_up, bound]
    · rw [evaluate_eq_throw config global _ _ (Nat.not_lt.mp inside),
        evaluate_eq_throw config global _ _ (Nat.not_lt.mp inside)]
      rfl
  · have reached : config.maxDepth ≤ depth := Nat.not_lt.mp below
    rw [evaluate_eq_throw config global _ _ reached,
      evaluate_eq_throw config global _ _ (Nat.le_succ_of_le reached)]

end

/-- Let arguments be passed as they are written, and let a symbol occur neither in an expression nor
in any value that the scope holds. A function of this one parameter that evaluates the parameter's
value gives for the expression, under a limit that is three levels higher, what the expression gives
outside of the call. -/
theorem forcing_agrees_with_evaluating (config : Config) (lazy : config.passing = .unevaluated)
    (global : Scope) (depth : Nat) {scope : Scope} {world : World} {expression : Value}
    {name : String} (absent : ¬expression.Mentions name)
    (unmentioned : ∀ value, scope.Holds world value → ¬value.Mentions name) :
    (evaluate (config.withMaxDepth (config.maxDepth + 3)) global depth scope
        (.forced name expression)).outcome world =
      Evaluation.raised 3 ((evaluate config global depth scope expression).outcome world) := by
  have bound : (scope.push (.ofList [(name, expression)])).get world name = .ok expression := by
    simp [Scope.get, Scope.find_eq_or, Scope.in_frames_push, Bindings.ofList, Bindings.insertAll]
  have higherLazy : (config.withMaxDepth (config.maxDepth + 3)).passing = .unevaluated := lazy
  have onlyHeads := Value.only_heads_of_not_mentions absent
  have held : ∀ value, scope.Holds world value → value.OnlyHeads name := by
    intro value holds
    exact Value.only_heads_of_not_mentions (unmentioned value holds)
  -- Of the three levels, `funcall` takes two and `eval` takes one.
  rw [evaluate_forced higherLazy, outcome_eval_name bound,
    outcome_evaluate_raised config global depth 3,
    outcome_under_unnoticed_frame config global depth onlyHeads held]

theorem forced_definition_through_dynamic_scope :
    let y := Value.text "a"
    let f := Value.function ["x"] [.list [.symbol "eval", .symbol "y"]]
    let expression := Value.list [.symbol "defvar", .symbol "z",
      .list [.symbol "f", .symbol "y"]]
    let world : World := ⟨[.ofList [("f", f), ("y", y)]]⟩
    (evaluate ⟨7, .unevaluated⟩ ⟨[], 0⟩ 0 ⟨[], 0⟩ (.forced "x" expression)).outcome world =
        (.ok y, ⟨[.ofList [("f", f), ("y", y), ("z", y)]]⟩) ∧
      (evaluate ⟨4, .unevaluated⟩ ⟨[], 0⟩ 0 ⟨[], 0⟩ expression).outcome world =
        (.ok y, ⟨[.ofList [("f", f), ("y", y), ("z", y)]]⟩) := by
  intro y f expression world
  have direct : (evaluate ⟨4, .unevaluated⟩ ⟨[], 0⟩ 0 ⟨[], 0⟩ expression).outcome world =
      (.ok y, ⟨[.ofList [("f", f), ("y", y), ("z", y)]]⟩) := by
    unfold expression world f y
    cbv
  have absent : ¬expression.Mentions "x" := by
    simp [expression]
  have unmentioned : ∀ value, Scope.Holds ⟨[], 0⟩ world value → ¬value.Mentions "x" := by
    rintro value ⟨bindings, member, name, found⟩
    rw [List.mem_singleton.mp member] at found
    have bound := List.mem_pair.mp (Bindings.mem_of_find_of_list found)
    rcases bound with called | passed
    · rw [(Prod.mk.inj called).2]
      simp [f]
    · rw [(Prod.mk.inj passed).2]
      simp [y]
  have forced := forcing_agrees_with_evaluating ⟨4, .unevaluated⟩ rfl ⟨[], 0⟩ 0 absent unmentioned
  rw [direct] at forced
  exact ⟨forced, direct⟩

end TinyLisp
