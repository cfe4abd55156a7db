import TinyLisp.Proofs.Evaluation.DepthLimit

/-!
Two ways to call a function.

A list that is headed by an ordinary symbol calls what the symbol is bound to. A `funcall` form of
the symbol makes the same call, but one level deeper. So the two end alike, except that the second
one comes to the depth limit a level earlier.
-/

set_option autoImplicit false

namespace TinyLisp

theorem evaluate_symbol (config : Config) (global : Scope) {depth : Nat}
    (below : depth < config.maxDepth) (scope : Scope) (name : String) :
    evaluate config global depth scope (.symbol name) = Evaluation.lookUp scope name := by
  rw [evaluate_eq_level config global scope _ below]
  rfl

theorem evaluate_funcall_form (config : Config) (global : Scope) {depth : Nat}
    (below : depth < config.maxDepth) (scope : Scope) (callee : Value) (arguments : List Value) :
    evaluate config global depth scope (.list (.symbol "funcall" :: callee :: arguments)) = (do
      let function ← evaluate config global (depth + 1) scope callee
      Evaluation.call config.passing (evaluate config global (depth + 2)) scope function
        arguments) := by
  have funcall : Builtin.find? "funcall" = some (.special .funcall) := by decide
  rw [evaluate_eq_level config global scope _ below]
  simp only [Evaluation.level, Evaluation.form, funcall]
  rfl

theorem evaluate_head_form (config : Config) (global : Scope) {depth : Nat}
    (below : depth < config.maxDepth) (scope : Scope) {head : String}
    (ordinary : Builtin.find? head = none) (arguments : List Value) :
    evaluate config global depth scope (.list (.symbol head :: arguments)) = (do
      let function ← evaluate config global (depth + 1) scope (.symbol head)
      Evaluation.call config.passing (evaluate config global (depth + 1)) scope function
        arguments) := by
  rw [evaluate_eq_level config global scope _ below]
  simp only [Evaluation.level, Evaluation.form, ordinary]

namespace Evaluation

variable {Result : Type} {reached : Except EvalError Result × World}

theorem cut_off_raised (cut : CutOff reached.1) (extra : Nat) :
    CutOff (raised extra reached).1 := by
  obtain ⟨limit, exhausted⟩ := cut
  refine ⟨limit + extra, ?_⟩
  rw [raised, exhausted]
  rfl

/-- What was not cut off is the same under a higher limit. -/
theorem raised_of_finished (finished : ¬CutOff reached.1) (extra : Nat) :
    raised extra reached = reached := by
  obtain ⟨result, after⟩ := reached
  cases result with
  | ok value => rfl
  | error error =>
      cases error with
      | stackExhausted limit => exact absurd ⟨limit, rfl⟩ finished
      | _ => rfl

end Evaluation

/-- What was not cut off one level deeper ends in the same way. -/
theorem shallower_extends (config : Config) (global : Scope) (depth : Nat) :
    Congruence.extending.Evaluators (evaluate config global (depth + 1))
      (evaluate config global depth) := by
  intro scope _ expression same world
  subst same
  by_cases cut :
      Evaluation.CutOff ((evaluate config global (depth + 1) scope expression).outcome world).1
  · exact .inl cut
  · have higher := outcome_evaluate_extended cut (Nat.le_succ config.maxDepth)
    rw [outcome_evaluate_raised config global depth 1] at higher
    have finished : ¬Evaluation.CutOff
        ((evaluate config global depth scope expression).outcome world).1 := by
      intro shallowCut
      have raisedCut := Evaluation.cut_off_raised shallowCut 1
      rw [higher] at raisedCut
      exact cut raisedCut
    rw [Evaluation.raised_of_finished finished] at higher
    exact .inr higher

section

variable {config : Config} {global scope : Scope} {depth : Nat} {head : String}
  {arguments : List Value} {world : World}

theorem below_of_finished {expression : Value}
    (finished : ¬Evaluation.CutOff
      ((evaluate config global depth scope expression).outcome world).1) :
    depth < config.maxDepth := by
  by_contra reached
  rw [evaluate_eq_throw config global scope expression (Nat.not_lt.mp reached)] at finished
  exact finished ⟨config.maxDepth, rfl⟩

theorem outcome_head_of_funcall (ordinary : Builtin.find? head = none)
    (finished : ¬Evaluation.CutOff ((evaluate config global depth scope
      (.list (.symbol "funcall" :: .symbol head :: arguments))).outcome world).1) :
    (evaluate config global depth scope (.list (.symbol head :: arguments))).outcome world =
      (evaluate config global depth scope
        (.list (.symbol "funcall" :: .symbol head :: arguments))).outcome world := by
  have below := below_of_finished finished
  have related : Congruence.extending.Related
      (evaluate config global depth scope (.list (.symbol "funcall" :: .symbol head :: arguments)))
      (evaluate config global depth scope (.list (.symbol head :: arguments))) := by
    rw [evaluate_funcall_form config global below,
      evaluate_head_form config global below scope ordinary]
    apply Congruence.extending.bind
    · intro world
      exact .inr rfl
    · intro function
      exact Congruence.related_call config.passing (shallower_extends config global (depth + 1))
        rfl function arguments
  rcases related world with cut | same
  · exact absurd cut finished
  · exact same

theorem outcome_funcall_of_head (ordinary : Builtin.find? head = none)
    (finished : ¬Evaluation.CutOff
      ((evaluate config global depth scope (.list (.symbol head :: arguments))).outcome world).1) :
    (evaluate (config.withMaxDepth (config.maxDepth + 1)) global depth scope
        (.list (.symbol "funcall" :: .symbol head :: arguments))).outcome world =
      (evaluate config global depth scope (.list (.symbol head :: arguments))).outcome world := by
  have below := below_of_finished finished
  let higher := config.withMaxDepth (config.maxDepth + 1)
  have belowHigher : depth < higher.maxDepth := Nat.lt_succ_of_lt below
  have headBelow : depth + 1 < config.maxDepth := by
    by_contra reached
    rw [evaluate_head_form config global below scope ordinary,
      evaluate_eq_throw config global scope _ (Nat.not_lt.mp reached)] at finished
    exact finished ⟨config.maxDepth, rfl⟩
  have related : (Congruence.raising 1).Related
      (evaluate config global depth scope (.list (.symbol head :: arguments)))
      (evaluate higher global depth scope
        (.list (.symbol "funcall" :: .symbol head :: arguments))) := by
    rw [evaluate_head_form config global below scope ordinary,
      evaluate_funcall_form higher global belowHigher, evaluate_symbol config global headBelow,
      evaluate_symbol higher global (Nat.lt_succ_of_lt headBelow)]
    apply (Congruence.raising 1).bind
    · exact (Congruence.raising 1).lookUp rfl
    · intro function
      apply Congruence.related_call
      · intro inner _ expression same world
        subst same
        exact outcome_evaluate_raised config global (depth + 1) 1 inner expression world
      · rfl
  rw [related world, Evaluation.raised_of_finished finished]

end

/-- Let a symbol name no operation. Where calling it through `funcall` is not cut off, calling it as
the head of a list ends in the same way and leaves the same world. Where calling it as the head of a
list is not cut off, calling it through `funcall` does so under a limit that is one level higher. -/
theorem head_call_agrees_with_funcall (config : Config) (global : Scope) (depth : Nat)
    (scope : Scope) {head : String} (ordinary : Builtin.find? head = none)
    (arguments : List Value) (world : World) :
    let direct := Value.list (.symbol head :: arguments)
    let indirect := Value.list (.symbol "funcall" :: .symbol head :: arguments)
    (¬Evaluation.CutOff ((evaluate config global depth scope indirect).outcome world).1 →
      (evaluate config global depth scope direct).outcome world =
        (evaluate config global depth scope indirect).outcome world) ∧
    (¬Evaluation.CutOff ((evaluate config global depth scope direct).outcome world).1 →
      (evaluate (config.withMaxDepth (config.maxDepth + 1)) global depth scope indirect).outcome
          world =
        (evaluate config global depth scope direct).outcome world) := by
  constructor
  · intro finished
    exact outcome_head_of_funcall ordinary finished
  · intro finished
    exact outcome_funcall_of_head ordinary finished

theorem call_and_funcall_one_level_apart :
    let world : World :=
      ⟨[.ofList [("f", .function ["x"] [.list [.symbol "eval", .symbol "x"]])]]⟩
    let direct := Value.list [.symbol "f", .text "a"]
    let indirect := Value.list [.symbol "funcall", .symbol "f", .text "a"]
    (evaluate ⟨3, .unevaluated⟩ ⟨[], 0⟩ 0 ⟨[], 0⟩ direct).outcome world =
        (.ok (.text "a"), world) ∧
      (evaluate ⟨3, .unevaluated⟩ ⟨[], 0⟩ 0 ⟨[], 0⟩ indirect).outcome world =
        (.error (.stackExhausted 3), world) ∧
      (evaluate ⟨4, .unevaluated⟩ ⟨[], 0⟩ 0 ⟨[], 0⟩ indirect).outcome world =
        (.ok (.text "a"), world) := by
  intro world direct indirect
  have called : (evaluate ⟨3, .unevaluated⟩ ⟨[], 0⟩ 0 ⟨[], 0⟩ direct).outcome world =
      (.ok (.text "a"), world) := by
    unfold direct world
    cbv
  have cut : (evaluate ⟨3, .unevaluated⟩ ⟨[], 0⟩ 0 ⟨[], 0⟩ indirect).outcome world =
      (.error (.stackExhausted 3), world) := by
    unfold indirect world
    cbv
  have finished : ¬Evaluation.CutOff
      ((evaluate ⟨3, .unevaluated⟩ ⟨[], 0⟩ 0 ⟨[], 0⟩ direct).outcome world).1 := by
    rw [called]
    intro exhausted
    obtain ⟨limit, reached⟩ := exhausted
    contradiction
  have ordinary : Builtin.find? "f" = none := by decide
  have agree := head_call_agrees_with_funcall ⟨3, .unevaluated⟩ ⟨[], 0⟩ 0 ⟨[], 0⟩ ordinary
    [.text "a"] world
  exact ⟨called, cut, (agree.2 finished).trans called⟩

end TinyLisp
