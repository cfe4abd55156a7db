import Mathlib
import TinyLisp.Value.Basic

/-!
The nodes of a value: the value itself, and what stands in the lists and in the function bodies it
is made of, each with the number of levels above it.
-/

set_option autoImplicit false

namespace TinyLisp

namespace Value

/-- Induction over values, with the hypothesis for every element of a list and of a body. -/
@[elab_as_elim, induction_eliminator]
theorem tree_induction {motive : Value → Prop}
    (symbol : ∀ name, motive (.symbol name))
    (text : ∀ contents, motive (.text contents))
    (number : ∀ value, motive (.number value))
    (list : ∀ elements, (∀ element ∈ elements, motive element) → motive (.list elements))
    (function : ∀ params body, (∀ element ∈ body, motive element) →
      motive (.function params body))
    (value : Value) : motive value := by
  refine @Value.rec motive (fun values => ∀ value ∈ values, motive value)
    symbol text number list function ?_ ?_ value
  · intro value member
    contradiction
  · intro head tail headHolds tailHolds value member
    rcases List.mem_cons.mp member with rfl | member
    · exact headHolds
    · exact tailHolds value member

/-- A node of a value under so many lists and bodies. -/
inductive HasNode : Value → Nat → Value → Prop
  | root (value : Value) : HasNode value 0 value
  | element {elements : List Value} {element : Value} {depth : Nat} {node : Value}
      (member : element ∈ elements) (inside : HasNode element depth node) :
      HasNode (.list elements) (depth + 1) node
  | body {params : List String} {body : List Value} {element : Value} {depth : Nat} {node : Value}
      (member : element ∈ body) (inside : HasNode element depth node) :
      HasNode (.function params body) (depth + 1) node

theorem has_node_zero_iff {value node : Value} : value.HasNode 0 node ↔ node = value := by
  constructor
  · intro held
    cases held
    rfl
  · rintro rfl
    exact .root node

theorem has_node_function_succ_iff {params : List String} {body : List Value} {depth : Nat}
    {node : Value} :
    (Value.function params body).HasNode (depth + 1) node ↔
      ∃ element ∈ body, element.HasNode depth node := by
  constructor
  · intro held
    cases held with
    | body member inside => exact ⟨_, member, inside⟩
  · rintro ⟨element, member, inside⟩
    exact .body member inside

section Forall

variable {Holds : Value → Prop}

theorem forall_nodes_of_leaf {value : Value} (holds : Holds value)
    (leaf : ∀ depth node, ¬value.HasNode (depth + 1) node) :
    ∀ depth node, value.HasNode depth node → Holds node := by
  intro depth node inside
  cases depth with
  | zero =>
      rw [has_node_zero_iff.mp inside]
      exact holds
  | succ depth => exact absurd inside (leaf depth node)

theorem forall_nodes_list_iff {elements : List Value} :
    (∀ depth node, (Value.list elements).HasNode depth node → Holds node) ↔
      Holds (.list elements) ∧
        ∀ element ∈ elements, ∀ depth node, element.HasNode depth node → Holds node := by
  constructor
  · intro each
    refine ⟨each 0 _ (.root _), fun element member depth node inside => ?_⟩
    exact each (depth + 1) node (.element member inside)
  · rintro ⟨whole, each⟩ depth node inside
    cases inside with
    | root => exact whole
    | element member inside => exact each _ member _ node inside

theorem forall_nodes_function_iff {params : List String} {body : List Value} :
    (∀ depth node, (Value.function params body).HasNode depth node → Holds node) ↔
      Holds (.function params body) ∧
        ∀ element ∈ body, ∀ depth node, element.HasNode depth node → Holds node := by
  constructor
  · intro each
    refine ⟨each 0 _ (.root _), fun element member depth node inside => ?_⟩
    exact each (depth + 1) node (.body member inside)
  · rintro ⟨whole, each⟩ depth node inside
    cases inside with
    | root => exact whole
    | body member inside => exact each _ member _ node inside

end Forall

end Value

end TinyLisp
