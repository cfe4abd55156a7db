import TinyLisp.Bindings
import TinyLisp.EvalError

/-!
Scopes, and the world of the globals they end in.

A scope is a chain of frames over a root. Frames never change once they are made, so they are part
of the scope itself. Roots do change, so a scope only names its root, and the world holds the
roots.
-/

set_option autoImplicit false

namespace TinyLisp

/-- The bindings of every root, by number. A root without bindings need not be there. -/
structure World where
  roots : List Bindings

namespace World

def root (world : World) (index : Nat) : Bindings :=
  world.roots.getD index .empty

/-- Change one element of a list of roots, which is as long as it must be. -/
def changeAt (change : Bindings → Bindings) : Nat → List Bindings → List Bindings
  | 0, [] => [change .empty]
  | 0, bindings :: rest => change bindings :: rest
  | index + 1, [] => .empty :: changeAt change index []
  | index + 1, bindings :: rest => bindings :: changeAt change index rest

def write (world : World) (index : Nat) (name : String) (value : Value) : World :=
  ⟨changeAt (·.insert name value) index world.roots⟩

theorem getD_changeAt (change : Bindings → Bindings) (index : Nat) (roots : List Bindings)
    (asked : Nat) :
    (changeAt change index roots).getD asked .empty =
      if asked = index then change (roots.getD index .empty) else roots.getD asked .empty := by
  induction index generalizing roots asked with
  | zero => cases roots <;> cases asked <;> simp [changeAt]
  | succ index ih =>
      cases roots with
      | nil =>
          cases asked with
          | zero => simp [changeAt]
          | succ asked =>
              have next := ih [] asked
              simp only [List.getD_nil] at next
              simp only [changeAt, List.getD_cons_succ, next, Nat.succ.injEq, List.getD_nil]
      | cons bindings rest =>
          cases asked with
          | zero => simp [changeAt]
          | succ asked => simp only [changeAt, List.getD_cons_succ, ih, Nat.succ.injEq]

/-- A write changes the root it names, and no other. -/
@[simp] theorem root_write (world : World) (index : Nat) (name : String) (value : Value)
    (asked : Nat) :
    (world.write index name value).root asked =
      if asked = index then (world.root index).insert name value else world.root asked :=
  getD_changeAt _ index world.roots asked

end World

/-- A chain of frames, the innermost first, over a root. -/
structure Scope where
  frames : List Bindings
  root : Nat

namespace World

def empty : World := ⟨[]⟩

def addRoot (world : World) : World × Scope :=
  (⟨world.roots ++ [.empty]⟩, ⟨[], world.roots.length⟩)

end World

namespace Scope

def isGlobal (scope : Scope) : Bool :=
  scope.frames.isEmpty

def push (scope : Scope) (frame : Bindings) : Scope :=
  { scope with frames := frame :: scope.frames }

/-- The value of a name: from the innermost frame that binds it, else from the root. -/
def find? (scope : Scope) (world : World) (name : String) : Option Value :=
  match scope.frames.findSome? (·.find? name) with
  | some value => some value
  | none => (world.root scope.root).find? name

def get (scope : Scope) (world : World) (name : String) : Except EvalError Value :=
  match scope.find? world name with
  | some value => .ok value
  | none => .error (.unboundSymbol name)

def setGlobal (scope : Scope) (world : World) (name : String) (value : Value) : World :=
  world.write scope.root name value

def bindings (scope : Scope) (world : World) : Bindings :=
  scope.frames.foldr Bindings.overlay (world.root scope.root)

end Scope

end TinyLisp
