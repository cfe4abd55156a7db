import TinyLisp.Proofs.Evaluation.Outcome

/-!
Nested arithmetic.

An expression of numbers and operators alone has a value that can be read off from the bottom up,
and a height. Evaluation gives the value if the limit leaves room for the height and is cut off
otherwise, and it writes nothing.
-/

set_option autoImplicit false

namespace TinyLisp

/-- A number, or an operator with any number of arguments. -/
inductive ArithmeticTree where
  | literal (number : Float)
  | apply (operator : Operator) (arguments : List ArithmeticTree)

namespace ArithmeticTree

@[elab_as_elim, induction_eliminator]
theorem tree_induction {motive : ArithmeticTree → Prop}
    (literal : ∀ number, motive (.literal number))
    (apply : ∀ operator arguments, (∀ argument ∈ arguments, motive argument) →
      motive (.apply operator arguments))
    (tree : ArithmeticTree) : motive tree := by
  refine @ArithmeticTree.rec motive (fun trees => ∀ tree ∈ trees, motive tree) literal apply
    ?_ ?_ tree
  · intro tree member
    contradiction
  · intro head tail headHolds tailHolds tree member
    rcases List.mem_cons.mp member with rfl | member
    · exact headHolds
    · exact tailHolds tree member

mutual

/-- The expression that a tree is written as. -/
def expression : ArithmeticTree → Value
  | .literal number => .number number
  | .apply operator arguments => .list (.symbol operator.name :: expressions arguments)

def expressions : List ArithmeticTree → List Value
  | [] => []
  | argument :: rest => argument.expression :: expressions rest

end

mutual

/-- The value of a tree. Sums start from zero and products from one. Differences and quotients
start from the first argument, and are zero without one. -/
def value : ArithmeticTree → Float
  | .literal number => number
  | .apply .add arguments => (values arguments).foldl (· + ·) 0
  | .apply .multiply arguments => (values arguments).foldl (· * ·) 1
  | .apply .subtract [] => 0
  | .apply .subtract (first :: rest) => (values rest).foldl (· - ·) first.value
  | .apply .divide [] => 0
  | .apply .divide (first :: rest) => (values rest).foldl (· / ·) first.value

def values : List ArithmeticTree → List Float
  | [] => []
  | argument :: rest => argument.value :: values rest

end

mutual

/-- How many levels of arguments a tree has. -/
def height : ArithmeticTree → Nat
  | .literal _ => 0
  | .apply _ [] => 0
  | .apply _ (first :: rest) => 1 + greatestHeight (first :: rest)

def greatestHeight : List ArithmeticTree → Nat
  | [] => 0
  | argument :: rest => max argument.height (greatestHeight rest)

end

theorem expressions_eq_map (arguments : List ArithmeticTree) :
    expressions arguments = arguments.map expression := by
  induction arguments with
  | nil => rfl
  | cons argument rest ih => rw [expressions, ih, List.map_cons]

theorem values_eq_map (arguments : List ArithmeticTree) :
    values arguments = arguments.map value := by
  induction arguments with
  | nil => rfl
  | cons argument rest ih => rw [values, ih, List.map_cons]

theorem fold_values (operator : Operator) (arguments : List ArithmeticTree) :
    operator.fold (arguments.map value) = value (.apply operator arguments) := by
  rw [← values_eq_map]
  cases operator <;> cases arguments <;> rfl

theorem greatest_height_lt_iff (arguments : List ArithmeticTree) (depth limit : Nat) :
    depth + greatestHeight arguments < limit ↔
      depth < limit ∧ ∀ argument ∈ arguments, depth + argument.height < limit := by
  induction arguments with
  | nil => simp [greatestHeight]
  | cons argument rest ih =>
      rw [greatestHeight, ← Nat.add_max_add_left, max_lt_iff, ih, List.forall_mem_cons]
      exact and_left_comm

/-- A limit leaves room for a tree if it leaves room for the tree itself and, a level deeper, for
each of its arguments. -/
theorem room_iff (operator : Operator) (arguments : List ArithmeticTree) (depth limit : Nat) :
    depth + height (.apply operator arguments) < limit ↔
      depth < limit ∧ ∀ argument ∈ arguments, depth + 1 + argument.height < limit := by
  cases arguments with
  | nil => simp [height]
  | cons first rest =>
      rw [height, ← Nat.add_assoc, greatest_height_lt_iff]
      constructor
      · intro room
        exact ⟨Nat.lt_of_succ_lt room.1, room.2⟩
      · intro room
        have roomForFirst := room.2 first List.mem_cons_self
        exact ⟨by omega, room.2⟩

/-- What evaluation does with a tree: its value where the limit leaves room, and nothing else where
it does not. -/
def evaluation (tree : ArithmeticTree) (depth limit : Nat) : Evaluation Value :=
  if depth + tree.height < limit then return .number tree.value else throw (.stackExhausted limit)

/-- The numbers of several arguments are their values, unless one of them is cut off. -/
theorem numbers_of_arguments (operator : Operator) {evaluate : Value → Evaluation Value}
    {depth limit : Nat} {arguments : List ArithmeticTree}
    (each : ∀ argument ∈ arguments,
      evaluate argument.expression = argument.evaluation depth limit) :
    (arguments.map expression).mapM (Evaluation.number operator evaluate) =
      if ∀ argument ∈ arguments, depth + argument.height < limit
      then return arguments.map value
      else throw (.stackExhausted limit) := by
  induction arguments with
  | nil => rfl
  | cons argument rest ih =>
      have others := ih fun argument member => each argument (List.mem_cons_of_mem _ member)
      have first : Evaluation.number operator evaluate argument.expression =
          if depth + argument.height < limit then return argument.value
          else throw (.stackExhausted limit) := by
        rw [Evaluation.number, each argument List.mem_cons_self, evaluation]
        split <;> rfl
      rw [List.map_cons, List.mapM_cons, first, others]
      have all : (∀ other ∈ argument :: rest, depth + other.height < limit) ↔
          depth + argument.height < limit ∧ ∀ other ∈ rest, depth + other.height < limit :=
        List.forall_mem_cons
      by_cases room : depth + argument.height < limit
      · by_cases roomForRest : ∀ other ∈ rest, depth + other.height < limit
        · rw [if_pos room, if_pos roomForRest, if_pos (all.mpr ⟨room, roomForRest⟩)]
          rfl
        · have cut := mt all.mp fun both => roomForRest both.2
          rw [if_pos room, if_neg roomForRest, if_neg cut]
          rfl
      · have cut := mt all.mp fun both => room both.1
        rw [if_neg room, if_neg cut]
        rfl

end ArithmeticTree

theorem evaluate_operator_form (config : Config) (global : Scope) {depth : Nat}
    (below : depth < config.maxDepth) (scope : Scope) (operator : Operator)
    (arguments : List Value) :
    evaluate config global depth scope (.list (.symbol operator.name :: arguments)) =
      Evaluation.arithmetic operator (evaluate config global (depth + 1) scope) arguments := by
  have found : Builtin.find? operator.name = some (.arithmetic operator) :=
    Builtin.find?_name (.arithmetic operator)
  rw [evaluate_eq_level config global scope _ below]
  simp only [Evaluation.level, Evaluation.form, found]
  rfl

theorem ArithmeticTree.evaluate_expression (config : Config) (global scope : Scope)
    (tree : ArithmeticTree) (depth : Nat) :
    evaluate config global depth scope tree.expression =
      tree.evaluation depth config.maxDepth := by
  induction tree generalizing depth with
  | literal number =>
      rw [evaluation, height, Nat.add_zero]
      split
      case isTrue below =>
        rw [evaluate_eq_level config global scope _ below]
        rfl
      case isFalse reached =>
        rw [evaluate_eq_throw config global scope _ (Nat.not_lt.mp reached)]
  | apply operator arguments ih =>
      rw [evaluation, expression, expressions_eq_map]
      simp only [room_iff]
      by_cases below : depth < config.maxDepth
      · have numbers := numbers_of_arguments operator
          fun argument member => ih argument member (depth + 1)
        rw [evaluate_operator_form config global below, Evaluation.arithmetic, numbers]
        by_cases room : ∀ argument ∈ arguments, depth + 1 + argument.height < config.maxDepth
        · rw [if_pos room, if_pos ⟨below, room⟩, ← fold_values]
          rfl
        · rw [if_neg room, if_neg fun both => room both.2]
          rfl
      · rw [evaluate_eq_throw config global scope _ (Nat.not_lt.mp below),
          if_neg fun both => below both.1]

/-- Evaluating nested arithmetic gives the value that it has from the bottom up, exactly if its
height stays below the limit, and is cut off otherwise. It changes nothing in the world. -/
theorem nested_arithmetic_has_its_value (tree : ArithmeticTree) (config : Config)
    (global scope : Scope) (depth : Nat) (world : World) :
    (evaluate config global depth scope tree.expression).outcome world =
      (if depth + tree.height < config.maxDepth then .ok (.number tree.value)
        else .error (.stackExhausted config.maxDepth), world) := by
  rw [ArithmeticTree.evaluate_expression, ArithmeticTree.evaluation]
  split
  · exact Evaluation.outcome_pure _ world
  · exact Evaluation.outcome_throw _ world

end TinyLisp
