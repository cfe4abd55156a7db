import TinyLisp.Proofs.Evaluation.Simulation
import TinyLisp.Proofs.Scope.Overlay
import TinyLisp.Proofs.Value.Nodes

/-!
Bindings that no evaluation can see.

The binding of a name makes no difference to an evaluation that never looks the name up. It does not
where the name does not occur, and it does not either where the name stands for a built-in operation
and occurs only at the heads of lists, because operations come before bindings. The class of such
values is not left: parameter lists are never evaluated, so a list of parameters that is headed by
the name does no harm, and a function whose parameter it is hides nothing that anyone looks up.
-/

set_option autoImplicit false

namespace TinyLisp

namespace Value

/-- What is asked of each node of a value in which a name occurs only at the heads of lists, and
there as the name of an operation. -/
def IsHeadOnlyNode (name : String) : Value → Prop
  | .symbol other => other = name → Builtin.find? name ≠ none
  | .list (_ :: arguments) => .symbol name ∉ arguments
  | .function _ body => .symbol name ∉ body
  | _ => True

/-- Every occurrence of a symbol in a value is the first element of a list, and if there is one at
all, the symbol names a built-in operation. -/
def OnlyHeads (name : String) (value : Value) : Prop :=
  value ≠ .symbol name ∧ ∀ depth node, value.HasNode depth node → node.IsHeadOnlyNode name

section OnlyHeads

variable {name : String}

theorem only_heads_of_leaf {value : Value} (different : value ≠ .symbol name)
    (headOnly : value.IsHeadOnlyNode name) (leaf : ∀ depth node, ¬value.HasNode (depth + 1) node) :
    value.OnlyHeads name :=
  ⟨different, forall_nodes_of_leaf headOnly leaf⟩

@[simp] theorem only_heads_symbol_iff {other : String} :
    (Value.symbol other).OnlyHeads name ↔ other ≠ name := by
  constructor
  · rintro ⟨different, -⟩ rfl
    exact different rfl
  · intro different
    apply only_heads_of_leaf
    · intro same
      exact different (Value.symbol.inj same)
    · intro same
      exact absurd same different
    · rintro depth node ⟨⟩

@[simp] theorem only_heads_text (contents : String) : (Value.text contents).OnlyHeads name :=
  only_heads_of_leaf nofun trivial nofun

@[simp] theorem only_heads_number (number : Float) : (Value.number number).OnlyHeads name :=
  only_heads_of_leaf nofun trivial nofun

@[simp] theorem only_heads_nil : (Value.list []).OnlyHeads name := by
  refine ⟨nofun, forall_nodes_list_iff.mpr ⟨trivial, ?_⟩⟩
  exact List.forall_mem_nil _

/-- A value that is not the symbol itself has it only at heads if all of its nodes allow it. -/
theorem only_heads_iff_of_ne {value : Value} (different : value ≠ .symbol name) :
    value.OnlyHeads name ↔
      ∀ depth node, value.HasNode depth node → node.IsHeadOnlyNode name :=
  and_iff_right different

theorem forall_only_heads_iff {values : List Value} :
    (∀ value ∈ values, value.OnlyHeads name) ↔
      .symbol name ∉ values ∧
        ∀ value ∈ values, ∀ depth node, value.HasNode depth node → node.IsHeadOnlyNode name := by
  constructor
  · intro each
    refine ⟨fun listed => (each _ listed).1 rfl, fun value member => (each value member).2⟩
  · rintro ⟨absent, nodes⟩ value member
    refine ⟨?_, nodes value member⟩
    rintro rfl
    exact absent member

@[simp] theorem only_heads_function_iff {params : List String} {body : List Value} :
    (Value.function params body).OnlyHeads name ↔
      ∀ expression ∈ body, expression.OnlyHeads name := by
  have different : Value.function params body ≠ .symbol name := nofun
  rw [only_heads_iff_of_ne different, forall_nodes_function_iff, forall_only_heads_iff]
  rfl

theorem head_nodes_iff {head : Value} :
    (∀ depth node, head.HasNode depth node → node.IsHeadOnlyNode name) ↔
      head = .symbol name ∧ Builtin.find? name ≠ none ∨ head.OnlyHeads name := by
  by_cases same : head = .symbol name
  · subst same
    constructor
    · intro nodes
      exact .inl ⟨rfl, nodes 0 _ (.root _) rfl⟩
    · rintro (⟨-, operation⟩ | onlyHeads) depth node inside
      · cases inside
        exact fun _ => operation
      · exact absurd rfl onlyHeads.1
  · rw [← only_heads_iff_of_ne same]
    constructor
    · exact .inr
    · rintro (⟨itself, -⟩ | onlyHeads)
      · exact absurd itself same
      · exact onlyHeads

@[simp] theorem only_heads_list_iff {head : Value} {arguments : List Value} :
    (Value.list (head :: arguments)).OnlyHeads name ↔
      (head = .symbol name ∧ Builtin.find? name ≠ none ∨ head.OnlyHeads name) ∧
        ∀ argument ∈ arguments, argument.OnlyHeads name := by
  have different : Value.list (head :: arguments) ≠ .symbol name := nofun
  rw [only_heads_iff_of_ne different, forall_nodes_list_iff, List.forall_mem_cons,
    head_nodes_iff, forall_only_heads_iff]
  exact and_left_comm

theorem OnlyHeads.argument {head argument : Value} {arguments : List Value}
    (onlyHeads : (Value.list (head :: arguments)).OnlyHeads name) (member : argument ∈ arguments) :
    argument.OnlyHeads name :=
  (only_heads_list_iff.mp onlyHeads).2 argument member

/-- A symbol that is looked up to find out what a list calls is another one. -/
theorem OnlyHeads.ordinary_head {head : String} {arguments : List Value}
    (onlyHeads : (Value.list (.symbol head :: arguments)).OnlyHeads name)
    (ordinary : Builtin.find? head = none) : (Value.symbol head).OnlyHeads name := by
  rcases (only_heads_list_iff.mp onlyHeads).1 with ⟨same, operation⟩ | headOnly
  · rw [Value.symbol.inj same] at ordinary
    exact absurd ordinary operation
  · exact headOnly

theorem OnlyHeads.evaluates {expression part : Value} (onlyHeads : expression.OnlyHeads name)
    (evaluates : expression.Evaluates part) : part.OnlyHeads name := by
  cases evaluates with
  | operand operator member => exact onlyHeads.argument member
  | forced => exact onlyHeads.argument List.mem_cons_self
  | defined => exact onlyHeads.argument (List.mem_cons_of_mem _ List.mem_cons_self)
  | callee => exact onlyHeads.argument List.mem_cons_self
  | head ordinary arguments => exact onlyHeads.ordinary_head ordinary

theorem OnlyHeads.calls_with {expression : Value} {arguments : List Value}
    (onlyHeads : expression.OnlyHeads name) (calls : expression.CallsWith arguments) :
    ∀ argument ∈ arguments, argument.OnlyHeads name := by
  intro argument member
  cases calls with
  | funcall callee => exact onlyHeads.argument (List.mem_cons_of_mem _ member)
  | head => exact onlyHeads.argument member

/-- A function takes its body, and no more, from the form that makes it. -/
theorem OnlyHeads.make_function {head : Value} {arguments : List Value} {function : Value}
    (onlyHeads : (Value.list (head :: arguments)).OnlyHeads name)
    (made : Evaluation.makeFunction arguments = .ok function) : function.OnlyHeads name := by
  obtain ⟨params, names, first, rest, rfl, -, rfl⟩ := Evaluation.parts_of_make_function made
  rw [only_heads_function_iff]
  intro expression member
  exact onlyHeads.argument (List.mem_cons_of_mem _ member)

end OnlyHeads

end Value

/-- Bindings that say the same of every name but one. -/
def Bindings.AgreeOff (hidden : String) (left right : Bindings) : Prop :=
  ∀ name, name ≠ hidden → left.find? name = right.find? name

/-- Worlds whose roots say the same of every name but one. -/
def World.AgreeOff (hidden : String) (left right : World) : Prop :=
  ∀ index, (left.root index).AgreeOff hidden (right.root index)

/-- Scopes over one root with as many frames, which say the same of every name but one. -/
structure Scope.AgreeOff (hidden : String) (left right : Scope) : Prop where
  root : left.root = right.root
  frames : List.Forall₂ (Bindings.AgreeOff hidden) left.frames right.frames

/-- A value is bound to a name in a scope or in one around it, be it shadowed or not. -/
def Scope.HoldsAs (scope : Scope) (world : World) (name : String) (value : Value) : Prop :=
  ∃ bindings ∈ scope.frames ++ [world.root scope.root], bindings.find? name = some value

theorem World.AgreeOff.write {hidden : String} {left right : World}
    (agree : left.AgreeOff hidden right) (root : Nat) (name : String) (value : Value) :
    (left.write root name value).AgreeOff hidden (right.write root name value) := by
  intro index other different
  have same := agree index other different
  rw [World.root_write, World.root_write]
  by_cases written : index = root
  · subst written
    rw [if_pos rfl, if_pos rfl, Bindings.find?_insert, Bindings.find?_insert, same]
  · rw [if_neg written, if_neg written, same]

theorem find_some_agree_off {hidden : String} {left right : List Bindings}
    (agree : List.Forall₂ (Bindings.AgreeOff hidden) left right) {name : String}
    (different : name ≠ hidden) :
    left.findSome? (·.find? name) = right.findSome? (·.find? name) := by
  induction agree with
  | nil => rfl
  | cons frame frames ih =>
      rw [List.findSome?_cons, List.findSome?_cons, frame name different, ih]

/-- Worlds that agree off a name, where no value of another name at one root exposes the name. -/
structure ConcealingWorlds (hidden : String) (origin : Nat) (left right : World) : Prop where
  agree : left.AgreeOff hidden right
  onlyHeads : ∀ name value, name ≠ hidden → (left.root origin).find? name = some value →
    value.OnlyHeads hidden

/-- Scopes over this root whose frames agree on what they show of other names, and show no value
that exposes the name. -/
structure ConcealingScopes (hidden : String) (origin : Nat) (left right : Scope) : Prop where
  leftRoot : left.root = origin
  rightRoot : right.root = origin
  agree : ∀ name, name ≠ hidden → left.inFrames? name = right.inFrames? name
  onlyHeads : ∀ name value, name ≠ hidden → left.inFrames? name = some value →
    value.OnlyHeads hidden

namespace ConcealingScopes

variable {hidden : String} {origin : Nat} {left right : Scope}

theorem get (scopes : ConcealingScopes hidden origin left right) {leftWorld rightWorld : World}
    (worlds : ConcealingWorlds hidden origin leftWorld rightWorld) {name : String}
    (different : name ≠ hidden) :
    left.get leftWorld name = right.get rightWorld name ∧
      ∀ value, left.get leftWorld name = .ok value → value.OnlyHeads hidden := by
  have sameFrames := scopes.agree name different
  have sameRoot := worlds.agree origin name different
  have shown : ∀ value, left.find? leftWorld name = some value → value.OnlyHeads hidden := by
    intro value found
    rw [Scope.find_eq_or, scopes.leftRoot, Option.or_eq_some_iff] at found
    rcases found with inFrames | ⟨-, inRoot⟩
    · exact scopes.onlyHeads name value different inFrames
    · exact worlds.onlyHeads name value different inRoot
  have same : left.find? leftWorld name = right.find? rightWorld name := by
    rw [Scope.find_eq_or, Scope.find_eq_or, scopes.leftRoot, scopes.rightRoot, sameFrames,
      sameRoot]
  rw [Scope.get, Scope.get, ← same]
  refine ⟨rfl, fun value got => ?_⟩
  split at got
  case h_1 held found =>
    rw [← Except.ok.inj got]
    exact shown held found
  case h_2 => contradiction

theorem push (scopes : ConcealingScopes hidden origin left right) (params : List String)
    {values : List Value} (onlyHeads : ∀ value ∈ values, value.OnlyHeads hidden) :
    ConcealingScopes hidden origin (left.push (.ofList (params.zip values)))
      (right.push (.ofList (params.zip values))) where
  leftRoot := scopes.leftRoot
  rightRoot := scopes.rightRoot
  agree := by
    intro name different
    rw [Scope.in_frames_push, Scope.in_frames_push, scopes.agree name different]
  onlyHeads := by
    intro name value different found
    rw [Scope.in_frames_push, Option.or_eq_some_iff] at found
    rcases found with pushed | ⟨-, earlier⟩
    · exact onlyHeads value (List.of_mem_zip (Bindings.mem_of_find_of_list pushed)).2
    · exact scopes.onlyHeads name value different earlier

end ConcealingScopes

theorem ConcealingWorlds.write {hidden : String} {origin : Nat} {left right : World}
    (worlds : ConcealingWorlds hidden origin left right) (root : Nat) (name : String)
    {value : Value} (onlyHeads : value.OnlyHeads hidden) :
    ConcealingWorlds hidden origin (left.write root name value) (right.write root name value) where
  agree := worlds.agree.write root name value
  onlyHeads := by
    intro other held different found
    rw [World.root_write] at found
    split at found
    case isTrue same =>
      rw [Bindings.find?_insert, ← same] at found
      split at found
      · rw [← Option.some.inj found]
        exact onlyHeads
      · exact worlds.onlyHeads other held different found
    case isFalse => exact worlds.onlyHeads other held different found

/-- Evaluation on both sides of bindings that differ in a name which is nowhere exposed. -/
def Simulation.concealing (hidden : String) (origin : Nat) {leftGlobal rightGlobal : Scope}
    (globals : leftGlobal.root = rightGlobal.root) : Simulation leftGlobal rightGlobal where
  Worlds := ConcealingWorlds hidden origin
  Scopes := ConcealingScopes hidden origin
  Expression := Value.OnlyHeads hidden
  Given := Value.OnlyHeads hidden
  part := fun onlyHeads evaluates => onlyHeads.evaluates evaluates
  again := id
  text := Value.only_heads_text
  number := Value.only_heads_number
  nil := Value.only_heads_nil
  function := id
  lambda := fun onlyHeads made => onlyHeads.make_function made
  lookUp := fun scopes worlds onlyHeads =>
    scopes.get worlds (Value.only_heads_symbol_iff.mp onlyHeads)
  define := by
    intro leftWorld rightWorld name expression value worlds _ onlyHeads
    rw [Scope.setGlobal, Scope.setGlobal, globals]
    exact worlds.write _ name onlyHeads

theorem Simulation.concealing_calls {hidden : String} {origin : Nat}
    {leftGlobal rightGlobal : Scope} {globals : leftGlobal.root = rightGlobal.root}
    (passing : Passing) {left right : Evaluator}
    (evaluators : (concealing hidden origin globals).Evaluators left right) :
    (concealing hidden origin globals).Calls passing passing left right := by
  apply calls_of_evaluators passing evaluators
  · intro leftScope rightScope scopes params values onlyHeads
    exact scopes.push params onlyHeads
  · intro expression arguments onlyHeads calls argument member
    have argumentOnlyHeads := onlyHeads.calls_with calls argument member
    exact ⟨argumentOnlyHeads, argumentOnlyHeads⟩
  · intro params body onlyHeads
    exact Value.only_heads_function_iff.mp onlyHeads

theorem Simulation.concealing_evaluate (hidden : String) (origin : Nat)
    {leftGlobal rightGlobal : Scope} (globals : leftGlobal.root = rightGlobal.root)
    (config : Config) (depth : Nat) :
    (concealing hidden origin globals).Evaluators (evaluate config leftGlobal depth)
      (evaluate config rightGlobal depth) := by
  apply agree_evaluate rfl
  intro depth evaluators
  exact concealing_calls config.passing evaluators

/-- Let a name be bound differently, or not at all, on two sides that agree on every other name. If
it occurs only at the heads of lists, where it names an operation, in the expression and in what
other names are bound to, then the evaluations on both sides give the same value or the same
failure, and the worlds after them again agree on every other name. -/
theorem hidden_binding_makes_no_difference (hidden : String) {leftWorld rightWorld : World}
    (worlds : leftWorld.AgreeOff hidden rightWorld) {leftGlobal rightGlobal : Scope}
    (globals : leftGlobal.AgreeOff hidden rightGlobal) {leftScope rightScope : Scope}
    (scopes : leftScope.AgreeOff hidden rightScope) {expression : Value}
    (onlyHeads : expression.OnlyHeads hidden)
    (bound : ∀ name value, name ≠ hidden → leftScope.HoldsAs leftWorld name value →
      value.OnlyHeads hidden)
    (config : Config) (depth : Nat) :
    let left := (evaluate config leftGlobal depth leftScope expression).outcome leftWorld
    let right := (evaluate config rightGlobal depth rightScope expression).outcome rightWorld
    left.1 = right.1 ∧ left.2.AgreeOff hidden right.2 := by
  have concealingWorlds : ConcealingWorlds hidden leftScope.root leftWorld rightWorld := by
    refine ⟨worlds, fun name value different found => bound name value different ?_⟩
    exact ⟨_, List.mem_append_right _ List.mem_cons_self, found⟩
  have concealingScopes : ConcealingScopes hidden leftScope.root leftScope rightScope := by
    refine ⟨rfl, scopes.root.symm, fun name different => ?_, fun name value different found => ?_⟩
    · exact find_some_agree_off scopes.frames different
    · obtain ⟨frame, member, held⟩ := List.exists_of_findSome?_eq_some found
      exact bound name value different ⟨frame, List.mem_append_left _ member, held⟩
  obtain ⟨agree, same, -⟩ := Simulation.concealing_evaluate hidden leftScope.root globals.root
    config depth concealingScopes expression onlyHeads leftWorld rightWorld concealingWorlds
  exact ⟨same, agree.agree⟩

theorem shadowed_addition_still_adds :
    let expression := Value.list [.symbol "funcall",
      .list [.symbol "lambda", .list [.symbol "+", .symbol "y"],
        .list [.symbol "+", .list [.symbol "eval", .symbol "y"],
          .list [.symbol "eval", .symbol "z"]]],
      .text "a", .list [.symbol "+"]]
    let left := (evaluate ⟨256, .unevaluated⟩ ⟨[], 0⟩ 0 ⟨[], 0⟩ expression).outcome
      ⟨[.ofList [("+", .symbol "+"), ("z", .list [.symbol "+"])]]⟩
    let right := (evaluate ⟨256, .unevaluated⟩ ⟨[], 0⟩ 0 ⟨[], 0⟩ expression).outcome
      ⟨[.ofList [("z", .list [.symbol "+"])]]⟩
    left.1 = right.1 ∧ left.2.AgreeOff "+" right.2 := by
  intro expression left right
  have operation : Builtin.find? "+" ≠ none := by decide
  have onlyHeads : expression.OnlyHeads "+" := by
    unfold expression
    simp [operation]
  have worlds : World.AgreeOff "+" ⟨[.ofList [("+", .symbol "+"), ("z", .list [.symbol "+"])]]⟩
      ⟨[.ofList [("z", .list [.symbol "+"])]]⟩ := by
    intro index name different
    cases index with
    | zero => simp [World.root, Bindings.ofList, Bindings.insertAll, different]
    | succ index => rfl
  have bound : ∀ name value, name ≠ "+" →
      Scope.HoldsAs ⟨[], 0⟩ ⟨[.ofList [("+", .symbol "+"), ("z", .list [.symbol "+"])]]⟩ name
        value → value.OnlyHeads "+" := by
    rintro name value different ⟨bindings, member, found⟩
    rw [List.mem_singleton.mp member] at found
    rcases List.mem_pair.mp (Bindings.mem_of_find_of_list found) with first | second
    · exact absurd (congrArg Prod.fst first) different
    · obtain ⟨-, rfl⟩ := Prod.mk.inj second
      simp [operation]
  exact hidden_binding_makes_no_difference "+" worlds ⟨rfl, .nil⟩ ⟨rfl, .nil⟩ onlyHeads bound
    ⟨256, .unevaluated⟩ 0

end TinyLisp
