import TinyLisp.Proofs.Evaluation.Congruence
import TinyLisp.Proofs.Scope.Overlay

/-!
Scopes that say the same.

Two scopes over one root whose frames give every name the same value cannot be told apart: every
look-up finds the same in both, also after a definition has changed the root, and a call pushes the
same frame onto both. So the frames of the calls that are under way may as well be one frame.
-/

set_option autoImplicit false

namespace TinyLisp

/-- Scopes over one root that give every name the same value in their frames. -/
structure Scope.Alike (left right : Scope) : Prop where
  root : left.root = right.root
  inFrames : ∀ name, left.inFrames? name = right.inFrames? name

namespace Scope.Alike

variable {left right : Scope}

theorem get (alike : left.Alike right) (world : World) (name : String) :
    left.get world name = right.get world name := by
  rw [Scope.get, Scope.get, find_eq_or, find_eq_or, alike.root, alike.inFrames]

theorem push (alike : left.Alike right) (frame : Bindings) :
    (left.push frame).Alike (right.push frame) := by
  constructor
  · exact alike.root
  · intro name
    rw [in_frames_push, in_frames_push, alike.inFrames]

end Scope.Alike

/-- One and the same computation, from scopes that are alike. -/
def Congruence.alike : Congruence where
  Related left right := left = right
  Scopes := Scope.Alike
  pure := fun _ => rfl
  throw := fun _ => rfl
  bind := by
    rintro Result Next left _ leftNext rightNext rfl nextSame
    exact congrArg (left >>= ·) (funext nextSame)
  lookUp := by
    intro left right name alike
    simp only [Evaluation.lookUp, alike.get]
  define := fun _ _ _ => rfl
  push := fun frame alike => alike.push frame

theorem evaluate_alike (config : Config) (global : Scope) (depth : Nat) {left right : Scope}
    (alike : left.Alike right) (expression : Value) :
    evaluate config global depth left expression =
      evaluate config global depth right expression := by
  have related : Congruence.alike.Evaluators (evaluate config global depth)
      (evaluate config global (depth + 0)) := by
    apply Congruence.related_evaluate rfl
    · intro depth below
      exact below
    · intro depth scope expression reached
      exact (evaluate_eq_throw config global scope expression reached).symm
  exact related expression alike

/-- Collapsing the frames of a scope, so that one frame over the same root binds each name to its
innermost value, changes neither the outcome of any evaluation from it nor the world after it. So
only what the frames say together matters, however many they are. -/
theorem evaluate_collapsed (config : Config) (global : Scope) (depth : Nat) (scope : Scope)
    (expression : Value) (world : World) :
    (∀ name, scope.merged.find? name = scope.frames.findSome? (·.find? name)) ∧
      (evaluate config global depth ⟨[scope.merged], scope.root⟩ expression).outcome world =
        (evaluate config global depth scope expression).outcome world ∧
      ∀ other : Scope, other.root = scope.root → other.merged = scope.merged →
        (evaluate config global depth other expression).outcome world =
          (evaluate config global depth scope expression).outcome world := by
  refine ⟨scope.find_merged, ?_, ?_⟩
  · have alike : Scope.Alike ⟨[scope.merged], scope.root⟩ scope := ⟨rfl, scope.in_frames_merged⟩
    exact congrArg (·.outcome world) (evaluate_alike config global depth alike expression)
  · intro other sameRoot sameFrames
    have alike : other.Alike scope := by
      refine ⟨sameRoot, fun name => ?_⟩
      rw [← other.find_merged, sameFrames, scope.find_merged]
    exact congrArg (·.outcome world) (evaluate_alike config global depth alike expression)

theorem two_frames_like_one :
    let inner := Bindings.ofList [("x", .text "a")]
    let outer := Bindings.ofList [("x", .text "b"), ("y", .text "c")]
    let both := Bindings.ofList [("x", .text "a"), ("y", .text "c")]
    Scope.merged ⟨[both], 0⟩ = Scope.merged ⟨[inner, outer], 0⟩ ∧
      (evaluate ⟨256, .unevaluated⟩ ⟨[], 0⟩ 0 ⟨[both], 0⟩ (.symbol "y")).outcome .empty =
        (evaluate ⟨256, .unevaluated⟩ ⟨[], 0⟩ 0 ⟨[inner, outer], 0⟩ (.symbol "y")).outcome
          .empty := by
  intro inner outer both
  have merged : Scope.merged ⟨[both], 0⟩ = Scope.merged ⟨[inner, outer], 0⟩ := by
    unfold both inner outer
    rfl
  exact ⟨merged, (evaluate_collapsed ⟨256, .unevaluated⟩ ⟨[], 0⟩ 0 ⟨[inner, outer], 0⟩
    (.symbol "y") .empty).2.2 ⟨[both], 0⟩ rfl merged⟩

end TinyLisp
