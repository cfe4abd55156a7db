import TinyLisp.Proofs.Evaluation.Congruence

/-!
The depth limit is only a cut-off.

Evaluation ends because its depth grows towards the limit, whatever functions the scopes hold. Only
the distance to the limit matters, and where the limit is not reached a higher one changes nothing.
The last two are congruences of evaluation.
-/

set_option autoImplicit false

namespace TinyLisp

def EvalError.raised (extra : Nat) : EvalError → EvalError
  | .stackExhausted limit => .stackExhausted (limit + extra)
  | error => error

theorem EvalError.raised_of_ordinary {error : EvalError} (ordinary : error.isExhausted = false)
    (extra : Nat) : error.raised extra = error := by
  cases error with
  | stackExhausted => contradiction
  | _ => rfl

namespace Evaluation

variable {Result : Type}

/-- An outcome under a limit that is so much higher. The world after it is the same. -/
def raised (extra : Nat) (reached : Except EvalError Result × World) :
    Except EvalError Result × World :=
  (reached.1.mapError (EvalError.raised extra), reached.2)

def CutOff (result : Except EvalError Result) : Prop :=
  ∃ limit, result = .error (.stackExhausted limit)

/-- So many levels of evaluation, after which another evaluator answers the calls. -/
def unrolled (config : Config) (global : Scope) (answering : Nat → Evaluator) :
    Nat → Nat → Evaluator
  | 0, depth => answering depth
  | levels + 1, depth => fun scope expression =>
      if depth < config.maxDepth then
        level config.passing global (unrolled config global answering levels (depth + 1))
          (unrolled config global answering levels (depth + 2)) scope expression
      else
        throw (.stackExhausted config.maxDepth)

/-- No call is left to answer after as many levels as there are up to the limit. -/
theorem unrolled_eq_evaluate (config : Config) (global : Scope) (answering : Nat → Evaluator)
    {levels depth : Nat} (enough : config.maxDepth - depth < levels) :
    unrolled config global answering levels depth = evaluate config global depth := by
  induction levels generalizing depth with
  | zero => contradiction
  | succ levels ih =>
      funext scope expression
      rw [unrolled]
      split
      case isTrue below =>
        rw [ih (by omega), ih (by omega), evaluate_eq_level config global scope expression below]
      case isFalse reached =>
        rw [evaluate_eq_throw config global scope expression (Nat.not_lt.mp reached)]

end Evaluation

/-- The second computation has the outcomes of the first one under a higher limit. -/
def Congruence.raising (extra : Nat) : Congruence where
  Related left right := ∀ world, right.outcome world = Evaluation.raised extra (left.outcome world)
  Scopes := Eq
  pure := fun _ _ => rfl
  throw := by
    intro Result error ordinary world
    rw [Evaluation.outcome_throw, Evaluation.raised, Except.mapError,
      EvalError.raised_of_ordinary ordinary]
  bind := by
    intro Result Next left right leftNext rightNext related nextRelated world
    rw [Evaluation.outcome_bind, Evaluation.outcome_bind, related world]
    rcases left.outcome world with ⟨error | result, between⟩
    · rfl
    · exact nextRelated result between
  lookUp := by
    rintro left right name rfl world
    rw [Evaluation.outcome_look_up, Scope.get]
    split <;> rfl
  define := fun _ _ _ _ => rfl
  push := fun frame same => congrArg (Scope.push · frame) same

/-- The second computation has the outcomes of the first one wherever the limit is not reached. -/
def Congruence.extending : Congruence where
  Related left right := ∀ world,
    Evaluation.CutOff (left.outcome world).1 ∨ right.outcome world = left.outcome world
  Scopes := Eq
  pure := fun _ _ => .inr rfl
  throw := fun _ _ => .inr rfl
  bind := by
    intro Result Next left right leftNext rightNext related nextRelated world
    rw [Evaluation.outcome_bind, Evaluation.outcome_bind]
    -- Once cut off, the first computation never comes to its second part.
    rcases related world with ⟨limit, cut⟩ | same
    · rcases computed : left.outcome world with ⟨error | result, between⟩ <;>
        rw [computed] at cut
      · exact .inl ⟨limit, congrArg Except.error (Except.error.inj cut)⟩
      · contradiction
    · rw [same]
      rcases left.outcome world with ⟨error | result, between⟩
      · exact .inr rfl
      · exact nextRelated result between
  lookUp := fun same _ => .inr (same ▸ rfl)
  define := fun _ _ _ _ => .inr rfl
  push := fun frame same => congrArg (Scope.push · frame) same

def Config.withMaxDepth (config : Config) (limit : Nat) : Config :=
  { config with maxDepth := limit }

theorem outcome_evaluate_raised (config : Config) (global : Scope) (depth extra : Nat)
    (scope : Scope) (expression : Value) (world : World) :
    (evaluate (config.withMaxDepth (config.maxDepth + extra)) global (depth + extra) scope
        expression).outcome world =
      Evaluation.raised extra ((evaluate config global depth scope expression).outcome world) := by
  have related : (Congruence.raising extra).Evaluators (evaluate config global depth)
      (evaluate (config.withMaxDepth (config.maxDepth + extra)) global (depth + extra)) := by
    apply Congruence.related_evaluate
    · rfl
    · intro depth below
      exact Nat.add_lt_add_right below extra
    · intro depth scope expression reached world
      rw [evaluate_eq_throw _ global scope expression (Nat.add_le_add_right reached extra)]
      rfl
  exact related expression rfl world

theorem outcome_evaluate_extended {config : Config} {global : Scope} {depth : Nat} {scope : Scope}
    {expression : Value} {world : World}
    (finished :
      ¬Evaluation.CutOff ((evaluate config global depth scope expression).outcome world).1)
    {limit : Nat} (higher : config.maxDepth ≤ limit) :
    (evaluate (config.withMaxDepth limit) global depth scope expression).outcome world =
      (evaluate config global depth scope expression).outcome world := by
  have related : Congruence.extending.Evaluators (evaluate config global depth)
      (evaluate (config.withMaxDepth limit) global depth) := by
    have samePassing : (config.withMaxDepth limit).passing = config.passing := rfl
    apply Congruence.related_evaluate samePassing global 0
    · intro depth below
      exact Nat.lt_of_lt_of_le below higher
    · intro depth scope expression reached world
      exact .inl ⟨config.maxDepth, rfl⟩
  rcases related expression rfl world with cut | same
  · exact absurd cut finished
  · exact same

/-- Evaluation ends after no more levels than there are up to the limit. Its outcome depends on its
depth and on the limit only through their distance, and a limit that was not reached only through
the fact that it was not. -/
theorem depth_limit_only_cuts_off (config : Config) (global : Scope) (depth : Nat) (scope : Scope)
    (expression : Value) (world : World) :
    (∀ answering levels, config.maxDepth - depth < levels →
      Evaluation.unrolled config global answering levels depth = evaluate config global depth) ∧
    (∀ extra,
      (evaluate (config.withMaxDepth (config.maxDepth + extra)) global (depth + extra) scope
          expression).outcome world =
        Evaluation.raised extra
          ((evaluate config global depth scope expression).outcome world)) ∧
    (∀ limit, config.maxDepth ≤ limit →
      ¬Evaluation.CutOff ((evaluate config global depth scope expression).outcome world).1 →
      (evaluate (config.withMaxDepth limit) global depth scope expression).outcome world =
        (evaluate config global depth scope expression).outcome world) := by
  refine ⟨?_, ?_, ?_⟩
  · intro answering levels enough
    exact Evaluation.unrolled_eq_evaluate config global answering enough
  · intro extra
    exact outcome_evaluate_raised config global depth extra scope expression world
  · intro limit higher finished
    exact outcome_evaluate_extended finished higher

theorem recursive_definition_under_higher_limit :
    let expression := Value.list [.symbol "defvar", .symbol "f",
      .list [.symbol "lambda", .list [], .list [.symbol "f"]]]
    let defined := (evaluate ⟨2, .unevaluated⟩ ⟨[], 0⟩ 0 ⟨[], 0⟩ expression).outcome .empty
    defined.1 = .ok (.function [] [.list [.symbol "f"]]) ∧
      (evaluate (Config.withMaxDepth ⟨2, .unevaluated⟩ 256) ⟨[], 0⟩ 0 ⟨[], 0⟩ expression).outcome
        .empty = defined := by
  intro expression defined
  have finished : defined.1 = .ok (.function [] [.list [.symbol "f"]]) := by
    unfold defined expression
    cbv
  refine ⟨finished, ?_⟩
  apply (depth_limit_only_cuts_off ⟨2, .unevaluated⟩ ⟨[], 0⟩ 0 ⟨[], 0⟩ expression .empty).2.2
  · decide
  · intro cut
    obtain ⟨limit, reached⟩ := cut
    have impossible := finished.symm.trans reached
    contradiction

end TinyLisp
