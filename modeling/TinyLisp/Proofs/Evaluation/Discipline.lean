import TinyLisp.Proofs.Evaluation.Footprint
import TinyLisp.Proofs.Evaluation.Simulation
import TinyLisp.Proofs.Scope.Overlay

/-!
What evaluation gives, where only such values are bound.

A discipline tells the expressions that are evaluated from the values that evaluation gives. If
only values of the second kind are bound around an evaluation, then only such values are written,
and every look-up finds one of them again. So each discipline is a simulation of evaluation by
itself, in which the two sides may still differ in how they pass arguments.
-/

set_option autoImplicit false

namespace TinyLisp

/-- Every binding of the second world is a binding of the first one or binds an allowed value. -/
def World.Gains (Allowed : Value → Prop) (before after : World) : Prop :=
  ∀ root name value, (after.root root).find? name = some value →
    (before.root root).find? name = some value ∨ Allowed value

namespace World.Gains

variable {Allowed : Value → Prop} {before between after : World}

theorem refl (Allowed : Value → Prop) (world : World) : world.Gains Allowed world := by
  intro root name value found
  exact .inl found

theorem trans (first : before.Gains Allowed between) (second : between.Gains Allowed after) :
    before.Gains Allowed after := by
  intro root name value found
  rcases second root name value found with earlier | allowed
  · exact first root name value earlier
  · exact .inr allowed

theorem write (gains : before.Gains Allowed after) (root : Nat) (name : String) {value : Value}
    (allowed : Allowed value) : before.Gains Allowed (after.write root name value) := by
  intro asked other held found
  rw [World.root_write] at found
  split at found
  case isTrue same =>
    rw [Bindings.find?_insert] at found
    split at found
    · rw [← Option.some.inj found]
      exact .inr allowed
    · rw [same]
      exact gains root other held found
  case isFalse => exact gains asked other held found

end World.Gains

/-- The frames of a scope show allowed values only. -/
def Scope.FramesShow (Allowed : Value → Prop) (scope : Scope) : Prop :=
  ∀ name value, scope.inFrames? name = some value → Allowed value

namespace Scope.FramesShow

variable {Allowed : Value → Prop} {scope : Scope}

theorem push (frames : scope.FramesShow Allowed) (params : List String) {values : List Value}
    (allowed : ∀ value ∈ values, Allowed value) :
    (scope.push (.ofList (params.zip values))).FramesShow Allowed := by
  intro name value found
  rw [in_frames_push, Option.or_eq_some_iff] at found
  rcases found with pushed | ⟨-, earlier⟩
  · exact allowed value (List.of_mem_zip (Bindings.mem_of_find_of_list pushed)).2
  · exact frames name value earlier

theorem get (frames : scope.FramesShow Allowed) {world : World}
    (bound : ∀ name value, (world.root scope.root).find? name = some value → Allowed value)
    {name : String} {value : Value} (got : scope.get world name = .ok value) : Allowed value := by
  rw [Scope.get] at got
  split at got
  case h_1 held found =>
    rw [← Except.ok.inj got]
    rw [find_eq_or, Option.or_eq_some_iff] at found
    rcases found with inFrames | ⟨-, inRoot⟩
    · exact frames name held inFrames
    · exact bound name held inRoot
  case h_2 => contradiction

theorem of_holds {world : World} (held : ∀ value, scope.Holds world value → Allowed value) :
    scope.FramesShow Allowed := by
  intro name value found
  obtain ⟨frame, member, bound⟩ := List.exists_of_findSome?_eq_some found
  exact held value ⟨frame, List.mem_append_left _ member, name, bound⟩

end Scope.FramesShow

namespace Scope

variable {scope : Scope}

theorem holds_of_root {world : World} {name : String} {value : Value}
    (found : (world.root scope.root).find? name = some value) : scope.Holds world value :=
  ⟨_, List.mem_append_right _ List.mem_cons_self, name, found⟩

/-- A scope with a new frame holds nothing but what that binds and what it held before. -/
theorem holds_push {frame : Bindings} {world : World} {value : Value}
    (held : (scope.push frame).Holds world value) :
    (∃ name, frame.find? name = some value) ∨ scope.Holds world value := by
  obtain ⟨bindings, member, name, found⟩ := held
  rcases List.mem_cons.mp member with isFrame | around
  · exact .inl ⟨name, isFrame ▸ found⟩
  · exact .inr ⟨bindings, around, name, found⟩

theorem eq_of_holds_single {name : String} {value held : Value}
    (holds : Scope.Holds ⟨[], 0⟩ ⟨[.ofList [(name, value)]]⟩ held) : held = value := by
  obtain ⟨bindings, member, other, found⟩ := holds
  rw [List.mem_singleton.mp member] at found
  have bound := List.mem_singleton.mp (Bindings.mem_of_find_of_list found)
  exact (Prod.mk.inj bound).2

/-- A scope that holds allowed values only does so after allowed values have been written. -/
theorem holds_after_gains {Allowed : Value → Prop} {before after : World}
    (held : ∀ value, scope.Holds before value → Allowed value)
    (gains : before.Gains Allowed after) : ∀ value, scope.Holds after value → Allowed value := by
  rintro value ⟨bindings, member, name, found⟩
  rcases List.mem_append.mp member with inFrames | inRoot
  · exact held value ⟨bindings, List.mem_append_left _ inFrames, name, found⟩
  · rw [List.mem_singleton.mp inRoot] at found
    rcases gains scope.root name value found with earlier | allowed
    · exact held value (holds_of_root earlier)
    · exact allowed

end Scope

structure Discipline where
  /-- What is evaluated. -/
  Expression : Value → Prop
  /-- What evaluation gives, and what may be bound. -/
  Given : Value → Prop
  part : ∀ {expression part}, Expression expression → expression.Evaluates part → Expression part
  again : ∀ {value}, Given value → Expression value
  text : ∀ contents, Given (.text contents)
  number : ∀ number, Given (.number number)
  nil : Given .nil
  function : ∀ {params body}, Expression (.function params body) → Given (.function params body)
  lambda : ∀ {arguments function}, Expression (.list (.symbol "lambda" :: arguments)) →
    Evaluation.makeFunction arguments = .ok function → Given function

namespace Discipline

variable {discipline : Discipline} {global : Scope} {start : World} {origin : Nat}

def Binds (discipline : Discipline) (world : World) (root : Nat) : Prop :=
  ∀ name value, (world.root root).find? name = some value → discipline.Given value

theorem Binds.gains {world : World} (initial : discipline.Binds start origin)
    (gains : start.Gains discipline.Given world) : discipline.Binds world origin := by
  intro name value found
  rcases gains origin name value found with earlier | given
  · exact initial name value earlier
  · exact given

/-- Evaluation side by side with itself, from a world in which one root binds given values only. -/
def simulation (discipline : Discipline) (global : Scope)
    (initial : discipline.Binds start origin) : Simulation global global where
  Worlds left right := left = right ∧ start.Gains discipline.Given left
  Scopes left right := left = right ∧ left.root = origin ∧ left.FramesShow discipline.Given
  Expression := discipline.Expression
  Given := discipline.Given
  part := discipline.part
  again := discipline.again
  text := discipline.text
  number := discipline.number
  nil := discipline.nil
  function := discipline.function
  lambda := discipline.lambda
  lookUp := by
    rintro scope _ world _ name ⟨rfl, rfl, frames⟩ ⟨rfl, gains⟩ _
    constructor
    · rfl
    · intro value got
      exact frames.get (initial.gains gains) got
  define := by
    rintro world _ name expression value ⟨rfl, gains⟩ _ given
    exact ⟨rfl, gains.write _ name given⟩

variable {initial : discipline.Binds start origin}

/-- A call whose arguments come to the same given values on both sides. -/
theorem agree_call {leftPassing rightPassing : Passing} {left right : Evaluator}
    (inside : (discipline.simulation global initial).Evaluators left right) {scope : Scope}
    (root : scope.root = origin) (frames : scope.FramesShow discipline.Given) {callee : Value}
    {arguments : List Value}
    (passed : (discipline.simulation global initial).Agree
      (fun values => ∀ value ∈ values, discipline.Given value)
      (Evaluation.passed leftPassing (left scope) arguments)
      (Evaluation.passed rightPassing (right scope) arguments))
    (body : ∀ params body, callee = .function params body →
      ∀ expression ∈ body, discipline.Expression expression) :
    (discipline.simulation global initial).Agree discipline.Given
      (Evaluation.call leftPassing left scope callee arguments)
      (Evaluation.call rightPassing right scope callee arguments) := by
  apply Simulation.agree_call inside passed
  · intro params values given
    exact ⟨rfl, root, frames.push params given⟩
  · exact body

theorem ended_of_agree {Result : Type} {Gives : Result → Prop} {left right : Evaluation Result}
    (agree : (discipline.simulation global initial).Agree Gives left right) :
    left.outcome start = right.outcome start ∧
      start.Gains discipline.Given (left.outcome start).2 ∧
      ∀ result, (left.outcome start).1 = .ok result → Gives result := by
  obtain ⟨⟨sameWorld, gains⟩, sameResult, given⟩ := agree start start ⟨rfl, .refl _ start⟩
  exact ⟨Prod.ext sameResult sameWorld, gains, given⟩

end Discipline

end TinyLisp
