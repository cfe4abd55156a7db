import TinyLisp.Proofs.Evaluation.Effects
import TinyLisp.Proofs.Value.Nodes

/-!
The footprint of an evaluation.

An evaluation writes to one scope only, the outermost one of the scope that it defines names in. It
never makes a list, so a definition that it comes to carry out already stands somewhere: in the
expression, or in a value that is bound around it. The class of values behind this is that of the
values whose definitions define no names but given ones.
-/

set_option autoImplicit false

namespace TinyLisp

namespace Scope

def outermost (scope : Scope) : Scope :=
  ⟨[], scope.root⟩

def own (scope : Scope) (world : World) : Bindings :=
  match scope.frames with
  | [] => world.root scope.root
  | frame :: _ => frame

/-- A value is bound in a scope or in one around it, be it shadowed or not. -/
def Holds (scope : Scope) (world : World) (value : Value) : Prop :=
  ∃ bindings ∈ scope.frames ++ [world.root scope.root],
    ∃ name, bindings.find? name = some value

end Scope

/-- A value has a definition of a name somewhere inside of it. -/
def Value.Defines (value : Value) (name : String) : Prop :=
  ∃ depth expression, value.HasNode depth (.list [.symbol "defvar", .symbol name, expression])

/-- An evaluation of an expression from a scope can come across a definition of a name. -/
def Scope.Reaches (scope : Scope) (world : World) (expression : Value) (name : String) : Prop :=
  expression.Defines name ∨ ∃ value, scope.Holds world value ∧ value.Defines name

namespace Value

theorem defines_list_of_element {elements : List Value} {element : Value} {name : String}
    (member : element ∈ elements) (defines : element.Defines name) :
    (Value.list elements).Defines name := by
  obtain ⟨depth, expression, inside⟩ := defines
  exact ⟨depth + 1, expression, .element member inside⟩

theorem defines_function_of_body {params : List String} {body : List Value} {element : Value}
    {name : String} (member : element ∈ body) (defines : element.Defines name) :
    (Value.function params body).Defines name := by
  obtain ⟨depth, expression, inside⟩ := defines
  exact ⟨depth + 1, expression, .body member inside⟩

theorem element_of_defines_function {params : List String} {body : List Value} {name : String}
    (defines : (Value.function params body).Defines name) :
    ∃ element ∈ body, element.Defines name := by
  obtain ⟨depth, expression, inside⟩ := defines
  cases inside with
  | body member inside => exact ⟨_, member, _, expression, inside⟩

theorem not_defines_number (number : Float) (name : String) :
    ¬(Value.number number).Defines name := by
  rintro ⟨depth, expression, ⟨⟩⟩

theorem not_defines_nil (name : String) : ¬Value.nil.Defines name := by
  rintro ⟨depth, expression, inside⟩
  cases inside with
  | element member inside => contradiction

end Value

/-- The values that define no names but given ones. -/
def ValueClass.defining (Given : String → Prop) : ValueClass where
  Member value := ∀ name, value.Defines name → Given name
  Definable := Given
  nil := fun name defines => absurd defines (Value.not_defines_nil name)
  number := fun number name defines => absurd defines (Value.not_defines_number number name)
  element := fun listed member name defines =>
    listed name (Value.defines_list_of_element member defines)
  body := fun function member name defines =>
    function name (Value.defines_function_of_body member defines)
  function := by
    intro params names first rest form _ name defines
    obtain ⟨element, member, defines⟩ := Value.element_of_defines_function defines
    have listed := List.mem_cons_of_mem (.symbol "lambda")
      (List.mem_cons_of_mem (.list params) member)
    exact form name (Value.defines_list_of_element listed defines)
  definable := fun form => form _ ⟨0, _, .root _⟩

/-- Without a name to define there is nothing to write. -/
theorem ValueClass.Writes.eq_of_no_definable {family : ValueClass} {root : Nat}
    {before after : World} (writes : family.Writes root before after)
    (none : ∀ name, ¬family.Definable name) : after = before := by
  cases writes with
  | nothing => rfl
  | write _ definable _ => exact absurd definable (none _)

theorem writes_of_evaluate (config : Config) (global : Scope) (depth : Nat) (scope : Scope)
    (expression : Value) (world : World) :
    (ValueClass.defining (scope.Reaches world expression)).Writes global.root world
      ((evaluate config global depth scope expression).outcome world).2 := by
  have held : ∀ bindings ∈ scope.frames ++ [world.root scope.root],
      (ValueClass.defining (scope.Reaches world expression)).Binds bindings := by
    intro bindings member name value found written defines
    exact .inr ⟨value, ⟨bindings, member, name, found⟩, defines⟩
  have frames : ValueClass.BindsFrames (.defining (scope.Reaches world expression)) scope := by
    intro frame member
    exact held frame (List.mem_append_left _ member)
  have bound := held (world.root scope.root) (List.mem_append_right _ List.mem_cons_self)
  have expressionMember :
      (ValueClass.defining (scope.Reaches world expression)).Member expression := by
    intro name defines
    exact .inl defines
  exact (ValueClass.keeps_evaluate config global scope.root depth scope expression rfl frames
    expressionMember world bound).1

/-- Whether it succeeds or fails, an evaluation changes no scope but the outermost one it defines
names in, unbinds no name there, and changes the bindings of no names but those whose definitions
it can come across. Where it can come across none, the world stays as it is. -/
theorem evaluate_changes_only_reached_globals (config : Config) (global : Scope) (depth : Nat)
    (scope : Scope) (expression : Value) (world : World) :
    let after := ((evaluate config global depth scope expression).outcome world).2
    (∀ other : Scope, other ≠ global.outermost → other.own after = other.own world) ∧
      (∀ name, (global.outermost.own world).find? name ≠ none →
        (global.outermost.own after).find? name ≠ none) ∧
      (∀ name, (global.outermost.own after).find? name ≠ (global.outermost.own world).find? name →
        scope.Reaches world expression name) ∧
      ((∀ name, ¬scope.Reaches world expression name) → after = world) := by
  have writes := writes_of_evaluate config global depth scope expression world
  refine ⟨?_, ?_, ?_, ?_⟩
  · rintro ⟨frames, root⟩ different
    cases frames with
    | nil =>
        apply writes.root_unchanged
        intro same
        exact different (congrArg (Scope.mk []) same)
    | cons frame frames => rfl
  · intro name bound
    exact writes.still_bound bound
  · intro name changed
    rcases writes.find_cases name with unchanged | ⟨reached, -⟩
    · exact absurd unchanged changed
    · exact reached
  · intro none
    exact writes.eq_of_no_definable none

theorem definition_reached_where_binding_changes :
    let expression := Value.list [.symbol "eval",
      .list [.symbol "defvar", .symbol "x", .text "a"]]
    let after := ((evaluate ⟨256, .unevaluated⟩ ⟨[], 0⟩ 0 ⟨[], 0⟩ expression).outcome .empty).2
    (after.root 0).find? "x" = some (.text "a") ∧
      Scope.Reaches ⟨[], 0⟩ .empty expression "x" := by
  intro expression after
  have bound : (after.root 0).find? "x" = some (.text "a") := by
    unfold after expression
    cbv
  refine ⟨bound, ?_⟩
  apply (evaluate_changes_only_reached_globals ⟨256, .unevaluated⟩ ⟨[], 0⟩ 0 ⟨[], 0⟩ expression
    .empty).2.2.1
  intro unchanged
  exact Option.some_ne_none _ (bound.symm.trans unchanged)

end TinyLisp
