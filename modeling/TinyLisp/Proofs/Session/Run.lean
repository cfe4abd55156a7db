import TinyLisp.Program
import TinyLisp.Proofs.Evaluation.Effects

/-!
Sessions: source texts that are run one after the other in one scope.

What a session writes, returns and reports stays in any class of values that evaluation does not
leave, as soon as the texts read as members of it.
-/

set_option autoImplicit false

namespace TinyLisp

/-- Run source texts in a scope, each with a configuration of its own. A text that fails does not
end the session. -/
def runSession (scope : Scope) :
    List (Config × String) → World → List (Except RunError Value) × World
  | [], world => ([], world)
  | (config, source) :: lines, world =>
      let (result, between) := run config scope source world
      let (results, after) := runSession scope lines between
      (result :: results, after)

/-- The values that a run returns, or reports with its failure. -/
def shown : Except RunError Value → List Value
  | .ok value => [value]
  | .error (.reading _) => []
  | .error (.evaluation error) => error.carried

/-- The value that a run returns, or what its failure reports and names. -/
def mentioned : Except RunError Value → List Value
  | .ok value => [value]
  | .error (.reading _) => []
  | .error (.evaluation error) => error.mentioned

theorem mentioned_of_shown {result : Except RunError Value} {value : Value}
    (isShown : value ∈ shown result) : value ∈ mentioned result := by
  rcases result with (error | error) | returned
  · contradiction
  · exact EvalError.mentioned_of_carried isShown
  · exact isShown

theorem World.root_add_root (world : World) :
    world.addRoot.1.root world.addRoot.2.root = .empty := by
  unfold World.addRoot World.root
  rw [List.getD_append_right _ _ _ _ (Nat.le_refl _), Nat.sub_self]
  rfl

theorem run_of_read_all (config : Config) (scope : Scope) {source : String}
    {expressions : List Value} (read : Value.readAll (Token.tokenize source) = .ok expressions)
    (world : World) :
    run config scope source world =
      let ended := (Evaluation.lastOf (evaluate config scope 0 scope) expressions).outcome world
      (ended.1.mapError .evaluation, ended.2) := by
  rw [run, read]

namespace ValueClass

variable {family : ValueClass} {scope : Scope}

theorem keeps_run (config : Config) (frames : family.BindsFrames scope) {source : String}
    (members : ∀ expressions, Value.readAll (Token.tokenize source) = .ok expressions →
      ∀ expression ∈ expressions, family.Member expression)
    {world : World} (bound : family.Binds (world.root scope.root)) :
    family.Writes scope.root world (run config scope source world).2 ∧
      ∀ value ∈ mentioned (run config scope source world).1, family.Member value := by
  unfold run
  split
  case h_1 => exact ⟨.nothing world, List.forall_mem_nil _⟩
  case h_2 expressions read =>
    have kept : family.Keeps scope.root scope.root
        (Evaluation.lastOf (evaluate config scope 0 scope) expressions) family.Member := by
      apply keeps_last_of
      intro expression member
      exact keeps_evaluate config scope scope.root 0 scope expression rfl frames
        (members expressions read expression member)
    obtain ⟨writes, admitted⟩ := kept world bound
    rcases computed : (Evaluation.lastOf (evaluate config scope 0 scope) expressions).outcome world
      with ⟨error | value, after⟩ <;> rw [computed] at writes admitted
    · exact ⟨writes, admitted⟩
    · exact ⟨writes, List.forall_mem_singleton.mpr admitted⟩

theorem keeps_session (frames : family.BindsFrames scope) {lines : List (Config × String)}
    (members : ∀ line ∈ lines, ∀ expressions,
      Value.readAll (Token.tokenize line.2) = .ok expressions →
        ∀ expression ∈ expressions, family.Member expression)
    {world : World} (bound : family.Binds (world.root scope.root)) :
    family.Writes scope.root world (runSession scope lines world).2 ∧
      ∀ result ∈ (runSession scope lines world).1, ∀ value ∈ shown result,
        family.Member value := by
  induction lines generalizing world with
  | nil => exact ⟨.nothing world, List.forall_mem_nil _⟩
  | cons line lines ih =>
      obtain ⟨lineMembers, restMembers⟩ := List.forall_mem_cons.mp members
      obtain ⟨writes, lineMentioned⟩ := keeps_run line.1 frames lineMembers bound
      obtain ⟨laterWrites, laterShown⟩ := ih restMembers (writes.binds bound)
      have lineShown : ∀ value ∈ shown (run line.1 scope line.2 world).1, family.Member value := by
        intro value isShown
        exact lineMentioned value (mentioned_of_shown isShown)
      exact ⟨writes.trans laterWrites, List.forall_mem_cons.mpr ⟨lineShown, laterShown⟩⟩

/-- A session on a fresh root finds nothing bound, so that only its texts have to be members. -/
theorem keeps_fresh_session (existing : World) {lines : List (Config × String)}
    (members : ∀ line ∈ lines, ∀ expressions,
      Value.readAll (Token.tokenize line.2) = .ok expressions →
        ∀ expression ∈ expressions, family.Member expression) :
    let ended := runSession existing.addRoot.2 lines existing.addRoot.1
    family.Writes existing.addRoot.2.root existing.addRoot.1 ended.2 ∧
      ∀ result ∈ ended.1, ∀ value ∈ shown result, family.Member value := by
  have frames : family.BindsFrames existing.addRoot.2 := List.forall_mem_nil _
  have bound : family.Binds (existing.addRoot.1.root existing.addRoot.2.root) := by
    intro name value found
    rw [World.root_add_root] at found
    contradiction
  exact keeps_session frames members bound

theorem Writes.written_of_fresh {root : Nat} {before after : World}
    (writes : family.Writes root before after) (fresh : before.root root = .empty) {name : String}
    {value : Value} (found : (after.root root).find? name = some value) :
    family.Definable name ∧ family.Member value := by
  rcases writes.find_cases name with unchanged | ⟨definable, written, member, held⟩
  · rw [unchanged, fresh] at found
    contradiction
  · rw [held] at found
    exact ⟨definable, Option.some.inj found ▸ member⟩

end ValueClass

end TinyLisp
