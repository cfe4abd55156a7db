import TinyLisp.Proofs.Evaluation.Calls

/-!
The depth counter.

A call is passed the depth of its caller or a greater one, but never one beyond the limit: an
evaluation that has reached the limit calls nothing, and what is two levels deeper is called only
after something one level deeper has succeeded. As the outcome depends on nothing but the calls that
are made, a counter of 64 bits gives the outcome that an unbounded one gives.
-/

set_option autoImplicit false

namespace TinyLisp

/-- A call of the evaluator, of the loop over an operator's arguments or of a function, with the
depth that it is passed and the world that it starts in. -/
inductive Invocation where
  | evaluate (depth : Nat) (scope : Scope) (expression : Value) (world : World)
  | numbers (depth : Nat) (operator : Operator) (scope : Scope) (arguments : List Value)
      (world : World)
  | apply (depth : Nat) (scope : Scope) (callee : Value) (arguments : List Value) (world : World)

namespace Invocation

/-- The depth that a call is passed. -/
def depth : Invocation → Nat
  | .evaluate depth _ _ _ => depth
  | .numbers depth _ _ _ _ => depth
  | .apply depth _ _ _ _ => depth

/-- An evaluation may start at the depth limit, where it fails at once. The other calls start below
it, since they go on to evaluations one level deeper. -/
def Within (limit : Nat) : Invocation → Prop
  | .evaluate depth _ _ _ => depth ≤ limit
  | .numbers depth _ _ _ _ => depth < limit
  | .apply depth _ _ _ _ => depth < limit

theorem depth_le_of_within {limit : Nat} {invocation : Invocation}
    (within : invocation.Within limit) : invocation.depth ≤ limit := by
  cases invocation with
  | evaluate => exact within
  | numbers => exact Nat.le_of_lt within
  | apply => exact Nat.le_of_lt within

end Invocation

/-- The calls that a call makes itself. One that comes after others starts in the world that they
leave, and is made only if they have succeeded. -/
inductive Invokes (config : Config) (global : Scope) : Invocation → Invocation → Prop
  | evalOperand {depth : Nat} {scope : Scope} {head : String} {expression : Value} {world : World}
      (below : depth < config.maxDepth) (found : Builtin.find? head = some (.special .eval)) :
      Invokes config global (.evaluate depth scope (.list [.symbol head, expression]) world)
        (.evaluate (depth + 1) scope expression world)
  | evalResult {depth : Nat} {scope : Scope} {head : String} {expression value : Value}
      {world between : World} (below : depth < config.maxDepth)
      (found : Builtin.find? head = some (.special .eval))
      (first : (evaluate config global (depth + 1) scope expression).outcome world =
        (.ok value, between)) :
      Invokes config global (.evaluate depth scope (.list [.symbol head, expression]) world)
        (.evaluate (depth + 1) scope value between)
  | defvarValue {depth : Nat} {scope : Scope} {head name : String} {expression : Value}
      {world : World} (below : depth < config.maxDepth)
      (found : Builtin.find? head = some (.special .defvar)) :
      Invokes config global
        (.evaluate depth scope (.list [.symbol head, .symbol name, expression]) world)
        (.evaluate (depth + 1) scope expression world)
  | funcallCallee {depth : Nat} {scope : Scope} {head : String} {callee : Value}
      {arguments : List Value} {world : World} (below : depth < config.maxDepth)
      (found : Builtin.find? head = some (.special .funcall)) :
      Invokes config global
        (.evaluate depth scope (.list (.symbol head :: callee :: arguments)) world)
        (.evaluate (depth + 1) scope callee world)
  | funcallApply {depth : Nat} {scope : Scope} {head : String} {callee function : Value}
      {arguments : List Value} {world between : World} (below : depth < config.maxDepth)
      (found : Builtin.find? head = some (.special .funcall))
      (first : (evaluate config global (depth + 1) scope callee).outcome world =
        (.ok function, between)) :
      Invokes config global
        (.evaluate depth scope (.list (.symbol head :: callee :: arguments)) world)
        (.apply (depth + 1) scope function arguments between)
  | headSymbol {depth : Nat} {scope : Scope} {head : String} {arguments : List Value}
      {world : World} (below : depth < config.maxDepth) (ordinary : Builtin.find? head = none) :
      Invokes config global (.evaluate depth scope (.list (.symbol head :: arguments)) world)
        (.evaluate (depth + 1) scope (.symbol head) world)
  | headApply {depth : Nat} {scope : Scope} {head : String} {function : Value}
      {arguments : List Value} {world between : World} (below : depth < config.maxDepth)
      (ordinary : Builtin.find? head = none)
      (first : (evaluate config global (depth + 1) scope (.symbol head)).outcome world =
        (.ok function, between)) :
      Invokes config global (.evaluate depth scope (.list (.symbol head :: arguments)) world)
        (.apply depth scope function arguments between)
  | operatorNumbers {depth : Nat} {scope : Scope} {head : String} {operator : Operator}
      {arguments : List Value} {world : World} (below : depth < config.maxDepth)
      (found : Builtin.find? head = some (.arithmetic operator)) :
      Invokes config global (.evaluate depth scope (.list (.symbol head :: arguments)) world)
        (.numbers depth operator scope arguments world)
  | number {depth : Nat} {operator : Operator} {scope : Scope} {argument : Value}
      {results : List Float} {world between : World} (earlier later : List Value)
      (before : (earlier.mapM (Evaluation.number operator
        (evaluate config global (depth + 1) scope))).outcome world = (.ok results, between)) :
      Invokes config global (.numbers depth operator scope (earlier ++ argument :: later) world)
        (.evaluate (depth + 1) scope argument between)
  | argument {depth : Nat} {scope : Scope} {params : List String} {body results : List Value}
      {argument : Value} {world between : World} (earlier later : List Value)
      (eager : config.passing = .evaluated)
      (fitting : params.length = (earlier ++ argument :: later).length)
      (before : (earlier.mapM (evaluate config global (depth + 1) scope)).outcome world =
        (.ok results, between)) :
      Invokes config global
        (.apply depth scope (.function params body) (earlier ++ argument :: later) world)
        (.evaluate (depth + 1) scope argument between)
  | body {depth : Nat} {scope : Scope} {params : List String} {arguments values : List Value}
      {expression result : Value} {world entered between : World} (earlier later : List Value)
      (fitting : params.length = arguments.length)
      (passed : (Evaluation.passed config.passing (evaluate config global (depth + 1) scope)
        arguments).outcome world = (.ok values, entered))
      (before : (Evaluation.lastOf (evaluate config global (depth + 1)
        (scope.push (.ofList (params.zip values)))) earlier).outcome entered =
          (.ok result, between)) :
      Invokes config global
        (.apply depth scope (.function params (earlier ++ expression :: later)) arguments world)
        (.evaluate (depth + 1) (scope.push (.ofList (params.zip values))) expression between)

/-- Calls that are made one in the other. -/
def Reaches (config : Config) (global : Scope) : Invocation → Invocation → Prop :=
  Relation.TransGen (Invokes config global)

section Bounds

variable {config : Config} {global : Scope} {caller invoked : Invocation}

theorem below_of_ok {depth : Nat} {scope : Scope} {expression value : Value}
    {world after : World}
    (succeeded : (evaluate config global depth scope expression).outcome world =
      (.ok value, after)) : depth < config.maxDepth := by
  apply below_of_finished
  rw [succeeded]
  intro cut
  obtain ⟨limit, exhausted⟩ := cut
  contradiction

theorem within_of_invokes (invokes : Invokes config global caller invoked)
    (within : caller.Within config.maxDepth) : invoked.Within config.maxDepth := by
  cases invokes with
  | evalOperand below => exact below
  | evalResult below => exact below
  | defvarValue below => exact below
  | funcallCallee below => exact below
  -- The application is one level deeper, but there the function has just been evaluated.
  | funcallApply _ _ first => exact below_of_ok first
  | headSymbol below => exact below
  | headApply below => exact below
  | operatorNumbers below => exact below
  | number => exact within
  | argument => exact within
  | body => exact within

theorem within_of_reaches (reaches : Reaches config global caller invoked)
    (within : caller.Within config.maxDepth) : invoked.Within config.maxDepth := by
  induction reaches with
  | single invokes => exact within_of_invokes invokes within
  | tail _ invokes ih => exact within_of_invokes invokes ih

end Bounds

namespace Evaluation

section Sequences

variable {Item Result Next : Type}

theorem outcome_bind_congr {left right : Evaluation Result}
    {leftNext rightNext : Result → Evaluation Next} {world : World}
    (first : left.outcome world = right.outcome world)
    (next : ∀ result between, right.outcome world = (.ok result, between) →
      (leftNext result).outcome between = (rightNext result).outcome between) :
    (left >>= leftNext).outcome world = (right >>= rightNext).outcome world := by
  rw [outcome_bind, outcome_bind, first]
  rcases reached : right.outcome world with ⟨error | result, between⟩
  · rfl
  · exact next result between reached

theorem outcome_mapM_congr {left right : Item → Evaluation Result} {items : List Item}
    {world : World}
    (same : ∀ earlier item later results between, items = earlier ++ item :: later →
      (earlier.mapM right).outcome world = (.ok results, between) →
        (left item).outcome between = (right item).outcome between) :
    (items.mapM left).outcome world = (items.mapM right).outcome world := by
  induction items generalizing world with
  | nil => rfl
  | cons first items ih =>
      rw [List.mapM_cons, List.mapM_cons]
      apply outcome_bind_congr
      · exact same [] first items [] world rfl rfl
      · intro result after reached
        apply outcome_bind_congr
        · apply ih
          intro earlier item later results between split before
          apply same (first :: earlier) item later (result :: results) between
          · rw [split, List.cons_append]
          · rw [List.mapM_cons, outcome_bind, reached]
            simp only [outcome_bind, before, outcome_pure]
        · intro results between _
          rfl

theorem outcome_foldlM_congr {left right : Result → Item → Evaluation Result} {items : List Item}
    {initial : Result} {world : World}
    (same : ∀ earlier item later result between, items = earlier ++ item :: later →
      (earlier.foldlM right initial).outcome world = (.ok result, between) →
        (left result item).outcome between = (right result item).outcome between) :
    (items.foldlM left initial).outcome world = (items.foldlM right initial).outcome world := by
  induction items generalizing initial world with
  | nil => rfl
  | cons first items ih =>
      rw [List.foldlM_cons, List.foldlM_cons]
      apply outcome_bind_congr
      · exact same [] first items initial world rfl rfl
      · intro result after reached
        apply ih
        intro earlier item later last between split before
        apply same (first :: earlier) item later last between
        · rw [split, List.cons_append]
        · rw [List.foldlM_cons, outcome_bind, reached]
          exact before

end Sequences

section Answers

variable {config : Config} {global scope : Scope} {inner deeper : Evaluator} {depth : Nat}
  {world : World}

/-- Whether an evaluator gives the outcomes of evaluation at a depth, wherever a call reaches it. -/
def Answers (config : Config) (global : Scope) (caller : Invocation) (depth : Nat)
    (evaluator : Evaluator) : Prop :=
  ∀ scope expression world, Reaches config global caller (.evaluate depth scope expression world) →
    (evaluator scope expression).outcome world =
      (evaluate config global depth scope expression).outcome world

theorem Answers.of_invokes {caller invoked : Invocation} {evaluator : Evaluator}
    (answers : Answers config global caller depth evaluator)
    (invokes : Invokes config global caller invoked) :
    Answers config global invoked depth evaluator := by
  intro scope expression world reaches
  exact answers scope expression world (.head invokes reaches)

theorem outcome_arithmetic_of_answers {operator : Operator} {arguments : List Value}
    (answers : Answers config global (.numbers depth operator scope arguments world) (depth + 1)
      inner) :
    (arithmetic operator (inner scope) arguments).outcome world =
      (arithmetic operator (evaluate config global (depth + 1) scope) arguments).outcome world := by
  apply outcome_bind_congr
  · apply outcome_mapM_congr
    intro earlier argument later results between split before
    subst split
    apply outcome_bind_congr
    · exact answers scope argument between (.single (.number earlier later before))
    · intro value after _
      rfl
  · intro numbers after _
    rfl

theorem outcome_passed_of_answers {params : List String} {body arguments : List Value}
    (fitting : params.length = arguments.length)
    (answers : Answers config global (.apply depth scope (.function params body) arguments world)
      (depth + 1) inner) :
    (passed config.passing (inner scope) arguments).outcome world =
      (passed config.passing (evaluate config global (depth + 1) scope) arguments).outcome
        world := by
  cases passing : config.passing with
  | unevaluated => rfl
  | evaluated =>
      apply outcome_mapM_congr
      intro earlier argument later results between split before
      subst split
      exact answers scope argument between
        (.single (.argument earlier later passing fitting before))

theorem outcome_call_of_answers {callee : Value} {arguments : List Value}
    (answers : Answers config global (.apply depth scope callee arguments world) (depth + 1)
      inner) :
    (call config.passing inner scope callee arguments).outcome world =
      (call config.passing (evaluate config global (depth + 1)) scope callee arguments).outcome
        world := by
  unfold call
  split
  case h_1 params body =>
    split
    case isTrue fitting =>
      apply outcome_bind_congr (outcome_passed_of_answers fitting answers)
      intro values entered passed
      apply outcome_foldlM_congr
      intro earlier expression later result between split before
      subst split
      exact answers _ expression between (.single (.body earlier later fitting passed before))
    case isFalse => rfl
  case h_2 => rfl

end Answers

end Evaluation

section Levels

variable {config : Config} {global scope : Scope} {inner deeper : Evaluator} {depth : Nat}
  {world : World}

open Evaluation

theorem outcome_special_of_answers {form : SpecialForm} {head : String} {arguments : List Value}
    (below : depth < config.maxDepth) (found : Builtin.find? head = some (.special form))
    (inside : Answers config global
      (.evaluate depth scope (.list (.symbol head :: arguments)) world) (depth + 1) inner)
    (beyond : Answers config global
      (.evaluate depth scope (.list (.symbol head :: arguments)) world) (depth + 2) deeper) :
    (special config.passing global inner deeper scope form arguments).outcome world =
      (evaluateSpecial config global depth scope form arguments).outcome world := by
  unfold evaluateSpecial
  cases form with
  | eval =>
      simp only [special]
      split
      case h_1 expression =>
        apply outcome_bind_congr
        · exact inside scope expression world (.single (.evalOperand below found))
        · intro value between first
          exact inside scope value between (.single (.evalResult below found first))
      case h_2 => rfl
  | defvar =>
      simp only [special]
      split
      case h_1 name expression =>
        apply outcome_bind_congr
        · exact inside scope expression world (.single (.defvarValue below found))
        · intro value between _
          rfl
      all_goals rfl
  | lambda => rfl
  | funcall =>
      simp only [special]
      split
      case h_1 => rfl
      case h_2 callee rest =>
        apply outcome_bind_congr
        · exact inside scope callee world (.single (.funcallCallee below found))
        · intro function between first
          apply outcome_call_of_answers
          exact beyond.of_invokes (.funcallApply below found first)

theorem outcome_form_of_answers {head : String} {arguments : List Value}
    (below : depth < config.maxDepth)
    (inside : Answers config global
      (.evaluate depth scope (.list (.symbol head :: arguments)) world) (depth + 1) inner)
    (beyond : Answers config global
      (.evaluate depth scope (.list (.symbol head :: arguments)) world) (depth + 2) deeper) :
    (form config.passing global inner deeper scope head arguments).outcome world =
      (form config.passing global (evaluate config global (depth + 1))
        (evaluate config global (depth + 2)) scope head arguments).outcome world := by
  unfold form
  split
  case h_1 builtin found =>
    apply outcome_bind_congr rfl
    intro _ between validated
    rw [outcome_of_except] at validated
    obtain ⟨-, rfl⟩ := Prod.mk.inj validated
    cases builtin with
    | special form => exact outcome_special_of_answers below found inside beyond
    | arithmetic operator =>
        exact outcome_arithmetic_of_answers (inside.of_invokes (.operatorNumbers below found))
  case h_2 ordinary =>
    apply outcome_bind_congr
    · exact inside scope (.symbol head) world (.single (.headSymbol below ordinary))
    · intro function between first
      apply outcome_call_of_answers
      exact inside.of_invokes (.headApply below ordinary first)

/-- A level has the outcome of evaluation as soon as the calls that are made in it are answered as
evaluation answers them. What would be answered to any other call makes no difference. -/
theorem outcome_level_of_answers {expression : Value} (below : depth < config.maxDepth)
    (inside : Answers config global (.evaluate depth scope expression world) (depth + 1) inner)
    (beyond : Answers config global (.evaluate depth scope expression world) (depth + 2) deeper) :
    (level config.passing global inner deeper scope expression).outcome world =
      (evaluate config global depth scope expression).outcome world := by
  rw [evaluate_eq_level config global scope expression below]
  unfold level
  split
  case h_6 head arguments => exact outcome_form_of_answers below inside beyond
  all_goals rfl

end Levels

/-- So many levels of evaluation with the depth in a word of 64 bits, after which another evaluator
answers the calls. -/
def Evaluation.counted (passing : Passing) (maxDepth : UInt64) (global : Scope)
    (answering : UInt64 → Evaluator) : Nat → UInt64 → Evaluator
  | 0, depth => answering depth
  | levels + 1, depth => fun scope expression =>
      if depth < maxDepth then
        level passing global (counted passing maxDepth global answering levels (depth + 1))
          (counted passing maxDepth global answering levels (depth + 1 + 1)) scope expression
      else
        throw (.stackExhausted maxDepth.toNat)

/-- Below a limit that is a word itself, the counter does not wrap around. -/
theorem to_nat_next_depth {depth : UInt64} (limit : UInt64) (below : depth.toNat < limit.toNat) :
    (depth + 1).toNat = depth.toNat + 1 := by
  have bound := limit.toNat_lt
  rw [UInt64.toNat_add, UInt64.toNat_one]
  omega

theorem outcome_counted (passing : Passing) (maxDepth : UInt64) (global : Scope)
    (answering : UInt64 → Evaluator) {levels : Nat} {depth : UInt64}
    (enough : maxDepth.toNat - depth.toNat < levels) (scope : Scope) (expression : Value)
    (world : World) :
    (Evaluation.counted passing maxDepth global answering levels depth scope
        expression).outcome world =
      (evaluate ⟨maxDepth.toNat, passing⟩ global depth.toNat scope expression).outcome world := by
  induction levels generalizing depth scope expression world with
  | zero => contradiction
  | succ levels ih =>
      rw [Evaluation.counted]
      split
      case isTrue below =>
        have start : (Invocation.evaluate depth.toNat scope expression world).Within
            maxDepth.toNat := Nat.le_of_lt below
        have belowLimit : depth.toNat < maxDepth.toNat := below
        have next := to_nat_next_depth maxDepth belowLimit
        have room : depth.toNat < (Config.mk maxDepth.toNat passing).maxDepth := belowLimit
        apply outcome_level_of_answers room
        · intro innerScope part between _
          have fewer : maxDepth.toNat - (depth + 1).toNat < levels := by omega
          rw [← next]
          exact ih fewer innerScope part between
        · intro innerScope part between reaches
          have within : depth.toNat + 2 ≤ maxDepth.toNat := within_of_reaches reaches start
          have second := to_nat_next_depth maxDepth (next.trans_lt within)
          have fewer : maxDepth.toNat - (depth + 1 + 1).toNat < levels := by omega
          rw [next] at second
          rw [← second]
          exact ih fewer innerScope part between
      case isFalse reached =>
        rw [evaluate_eq_throw _ global scope expression (Nat.not_lt.mp reached)]

/-- From a depth below the limit, no call is passed a depth beyond it. So a counter of 64 bits never
wraps around: evaluation with such a counter ends after no more levels than there are up to the
limit, with the outcome and the world that an unbounded counter gives. -/
theorem depth_counter_never_wraps (passing : Passing) (maxDepth depth : UInt64)
    (global scope : Scope) (expression : Value) (world : World) :
    (depth < maxDepth → ∀ invoked,
      Reaches ⟨maxDepth.toNat, passing⟩ global (.evaluate depth.toNat scope expression world)
        invoked → invoked.depth ≤ maxDepth.toNat) ∧
    ∀ answering levels, maxDepth.toNat - depth.toNat < levels →
      (Evaluation.counted passing maxDepth global answering levels depth scope
          expression).outcome world =
        (evaluate ⟨maxDepth.toNat, passing⟩ global depth.toNat scope expression).outcome
          world := by
  constructor
  · intro below invoked reaches
    have start : (Invocation.evaluate depth.toNat scope expression world).Within maxDepth.toNat :=
      Nat.le_of_lt below
    exact Invocation.depth_le_of_within (within_of_reaches reaches start)
  · intro answering levels enough
    exact outcome_counted passing maxDepth global answering enough scope expression world

theorem function_called_two_levels_below_last_word :
    let world : World := ⟨[.ofList [("f", .function [] [.number 1])]]⟩
    let expression := Value.list [.symbol "funcall", .symbol "f"]
    let limit : UInt64 := 0xFFFFFFFFFFFFFFFF
    let depth : UInt64 := 0xFFFFFFFFFFFFFFFD
    let body := Invocation.evaluate (depth.toNat + 2) ⟨[.ofList []], 0⟩ (.number 1) world
    Reaches ⟨limit.toNat, .unevaluated⟩ ⟨[], 0⟩ (.evaluate depth.toNat ⟨[], 0⟩ expression world)
        body ∧
      body.depth ≤ limit.toNat ∧
      (Evaluation.counted .unevaluated limit ⟨[], 0⟩ (fun _ _ _ => return .nil) 3 depth ⟨[], 0⟩
        expression).outcome world = (.error (.stackExhausted limit.toNat), world) := by
  intro world expression limit depth body
  have callee : (evaluate ⟨limit.toNat, .unevaluated⟩ ⟨[], 0⟩ (depth.toNat + 1) ⟨[], 0⟩
      (.symbol "f")).outcome world = (.ok (.function [] [.number 1]), world) := by
    rw [evaluate_symbol _ _ (by decide)]
    rfl
  have applied : Invokes ⟨limit.toNat, .unevaluated⟩ ⟨[], 0⟩
      (.evaluate depth.toNat ⟨[], 0⟩ expression world)
      (.apply (depth.toNat + 1) ⟨[], 0⟩ (.function [] [.number 1]) [] world) :=
    .funcallApply (by decide) (by decide) callee
  have reaches : Reaches ⟨limit.toNat, .unevaluated⟩ ⟨[], 0⟩
      (.evaluate depth.toNat ⟨[], 0⟩ expression world) body :=
    .tail (.single applied) (.body [] [] rfl rfl rfl)
  obtain ⟨within, counted⟩ :=
    depth_counter_never_wraps .unevaluated limit depth ⟨[], 0⟩ ⟨[], 0⟩ expression world
  refine ⟨reaches, within (by decide) body reaches, ?_⟩
  rw [counted _ 3 (by decide)]
  unfold expression world limit depth
  cbv

end TinyLisp
