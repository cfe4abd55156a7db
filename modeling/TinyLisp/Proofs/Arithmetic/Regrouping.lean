import TinyLisp.Proofs.Arithmetic.Trees
import TinyLisp.Proofs.Arithmetic.Exact

/-!
Order and grouping of integers.

However integers are distributed over nested sums, the partial sums are sums of some of them, so
none is greater than their absolute values taken together. While these stay within 2 ^ 53, every
step is exact and the result is the sum, whatever the order and the grouping. The same holds of
products, where a zero counts as one.
-/

set_option autoImplicit false

namespace TinyLisp

open Binary64

/-- A tree of one operator alone, over literals that stand for the integers listed from left to
right. -/
inductive ArithmeticTree.Gathers (operator : Operator) : ArithmeticTree → List Int → Prop
  | literal {number : Float} {integer : Int} (stands : IsInteger number integer) :
      Gathers operator (.literal number) [integer]
  | apply {arguments : List ArithmeticTree} {parts : List (List Int)}
      (each : List.Forall₂ (Gathers operator) arguments parts) :
      Gathers operator (.apply operator arguments) parts.flatten

/-- An operator that folds numbers from a start. On integers it is exact as long as their weight,
which grows with every one that is added, is at most 2 ^ 53. -/
structure ExactFold (operator : Operator) where
  combine : Float → Float → Float
  start : Float
  total : List Int → Int
  weight : List Int → Nat
  fold_eq : ∀ numbers, operator.fold numbers = numbers.foldl combine start
  start_stands : IsInteger start (total [])
  total_singleton : ∀ integer, total [integer] = integer
  total_perm : ∀ {some others : List Int}, some.Perm others → total some = total others
  weight_perm : ∀ {some others : List Int}, some.Perm others → weight some = weight others
  weight_le : ∀ {some all : List Int}, some.Sublist all → weight some ≤ weight all
  combine_exact : ∀ {left right : Float} {before after : List Int},
    IsInteger left (total before) → IsInteger right (total after) →
    weight (before ++ after) ≤ 2 ^ 53 → IsInteger (combine left right) (total (before ++ after))

namespace ExactFold

variable {operator : Operator} (fold : ExactFold operator)

/-- A number that stands for the total of integers, if their weight allows it. -/
def Totals (number : Float) (integers : List Int) : Prop :=
  fold.weight integers ≤ 2 ^ 53 → IsInteger number (fold.total integers)

theorem foldl_exact {numbers : List Float} {parts : List (List Int)}
    (each : List.Forall₂ fold.Totals numbers parts) {number : Float} {before : List Int}
    (stands : IsInteger number (fold.total before))
    (light : fold.weight (before ++ parts.flatten) ≤ 2 ^ 53) :
    IsInteger (numbers.foldl fold.combine number) (fold.total (before ++ parts.flatten)) := by
  induction each generalizing number before with
  | nil => simpa using stands
  | @cons next part numbers parts nextTotals _ ih =>
      rw [List.flatten_cons, ← List.append_assoc] at light ⊢
      have lightSoFar : fold.weight (before ++ part) ≤ 2 ^ 53 :=
        (fold.weight_le (List.sublist_append_left _ _)).trans light
      have lightPart : fold.weight part ≤ 2 ^ 53 :=
        (fold.weight_le (List.sublist_append_right _ _)).trans lightSoFar
      exact ih (fold.combine_exact stands (nextTotals lightPart) lightSoFar) light

/-- Where integers are light enough, a tree over them has their total as its value. -/
theorem value_exact {tree : ArithmeticTree} {integers : List Int}
    (gathers : tree.Gathers operator integers) : fold.Totals tree.value integers := by
  induction tree generalizing integers with
  | literal number =>
      cases gathers with
      | literal stands =>
          intro _
          rw [ArithmeticTree.value, fold.total_singleton]
          exact stands
  | apply _ arguments ih =>
      cases gathers with
      | @apply _ parts each =>
          intro light
          have totals : List.Forall₂ fold.Totals (arguments.map ArithmeticTree.value) parts := by
            rw [List.forall₂_map_left_iff]
            refine ((List.forall₂_and_left _ _).mpr ⟨ih, each⟩).imp ?_
            intro argument part both
            exact both.1 both.2
          rw [← ArithmeticTree.fold_values, fold.fold_eq]
          exact fold.foldl_exact totals fold.start_stands light

theorem nat_abs_sum_le (integers : List Int) :
    integers.sum.natAbs ≤ (integers.map Int.natAbs).sum := by
  induction integers with
  | nil => exact Nat.le_refl 0
  | cons integer rest ih =>
      rw [List.sum_cons, List.map_cons, List.sum_cons]
      exact (Int.natAbs_add_le integer rest.sum).trans (Nat.add_le_add_left ih _)

theorem nat_abs_prod_le (integers : List Int) :
    integers.prod.natAbs ≤ (integers.map fun integer => max 1 integer.natAbs).prod := by
  induction integers with
  | nil => exact Nat.le_refl 1
  | cons integer rest ih =>
      rw [List.prod_cons, List.map_cons, List.prod_cons, Int.natAbs_mul]
      exact Nat.mul_le_mul (Nat.le_max_right 1 _) ih

def sums : ExactFold .add where
  combine := (· + ·)
  start := 0
  total := List.sum
  weight integers := (integers.map Int.natAbs).sum
  fold_eq _ := rfl
  start_stands := rfl
  total_singleton _ := List.sum_singleton
  total_perm same := same.sum_eq
  weight_perm same := (same.map _).sum_eq
  weight_le part := (part.map _).sum_le_sum (by simp)
  combine_exact := by
    intro left right before after leftStands rightStands light
    rw [List.sum_append]
    apply leftStands.add rightStands
    rw [← List.sum_append]
    exact (nat_abs_sum_le _).trans light

def products : ExactFold .multiply where
  combine := (· * ·)
  start := 1
  total := List.prod
  weight integers := (integers.map fun integer => max 1 integer.natAbs).prod
  fold_eq _ := rfl
  start_stands := by unfold IsInteger; decide +kernel
  total_singleton _ := List.prod_singleton
  total_perm same := same.prod_eq
  weight_perm same := (same.map _).prod_eq
  weight_le part := (part.map _).prod_le_prod' (by simp)
  combine_exact := by
    intro left right before after leftStands rightStands light
    rw [List.prod_append]
    apply leftStands.mul rightStands
    rw [← List.prod_append]
    exact (nat_abs_prod_le _).trans light

end ExactFold

/-- Both trees evaluate, and without a trace in the world, to numbers that are equal and stand for
an integer. -/
def BothGive (config : Config) (global scope : Scope) (depth : Nat) (world : World)
    (left right : ArithmeticTree) (integer : Int) : Prop :=
  ∃ leftNumber rightNumber : Float,
    (evaluate config global depth scope left.expression).outcome world =
      (.ok (.number leftNumber), world) ∧
    (evaluate config global depth scope right.expression).outcome world =
      (.ok (.number rightNumber), world) ∧
    (Value.number leftNumber == Value.number rightNumber) = true ∧
    IsInteger leftNumber integer ∧ IsInteger rightNumber integer

section Evaluations

variable {left right : ArithmeticTree} {leftIntegers rightIntegers : List Int} {config : Config}
  {depth : Nat}

theorem ExactFold.both_give {operator : Operator} (fold : ExactFold operator)
    (leftGathers : left.Gathers operator leftIntegers)
    (rightGathers : right.Gathers operator rightIntegers)
    (same : leftIntegers.Perm rightIntegers) (light : fold.weight leftIntegers ≤ 2 ^ 53)
    (leftRoom : depth + left.height < config.maxDepth)
    (rightRoom : depth + right.height < config.maxDepth) (global scope : Scope) (world : World) :
    BothGive config global scope depth world left right (fold.total leftIntegers) := by
  have leftStands : IsInteger left.value (fold.total leftIntegers) :=
    fold.value_exact leftGathers light
  have rightStands : IsInteger right.value (fold.total leftIntegers) := by
    rw [fold.total_perm same]
    rw [fold.weight_perm same] at light
    exact fold.value_exact rightGathers light
  refine ⟨left.value, right.value, ?_, ?_, equal_of_rational leftStands rightStands, leftStands,
    rightStands⟩
  · rw [ArithmeticTree.evaluate_expression, ArithmeticTree.evaluation, if_pos leftRoom]
    rfl
  · rw [ArithmeticTree.evaluate_expression, ArithmeticTree.evaluation, if_pos rightRoom]
    rfl

/-- Nested sums of the same integers are equal, whatever the order and the grouping, and so are
nested products. They are exact as long as the absolute values add up, or multiply, to at most
2 ^ 53. -/
theorem order_and_grouping_make_no_difference (same : leftIntegers.Perm rightIntegers)
    (leftRoom : depth + left.height < config.maxDepth)
    (rightRoom : depth + right.height < config.maxDepth) (global scope : Scope) (world : World) :
    (left.Gathers .add leftIntegers → right.Gathers .add rightIntegers →
      (leftIntegers.map Int.natAbs).sum ≤ 2 ^ 53 →
      BothGive config global scope depth world left right leftIntegers.sum) ∧
    (left.Gathers .multiply leftIntegers → right.Gathers .multiply rightIntegers →
      (leftIntegers.map fun integer => max 1 integer.natAbs).prod ≤ 2 ^ 53 →
      BothGive config global scope depth world left right leftIntegers.prod) := by
  constructor
  · intro leftGathers rightGathers light
    exact ExactFold.sums.both_give leftGathers rightGathers same light leftRoom rightRoom global
      scope world
  · intro leftGathers rightGathers light
    exact ExactFold.products.both_give leftGathers rightGathers same light leftRoom rightRoom global
      scope world

theorem regrouped_sum_at_the_bound_and_product_with_zero :
    let scope : Scope := ⟨[], 0⟩
    let sum : ArithmeticTree :=
      .apply .add [.literal 9007199254740989, .apply .add [.literal 2, .literal (-1)]]
    let regroupedSum : ArithmeticTree :=
      .apply .add [.apply .add [], .apply .add [.literal (-1), .literal 9007199254740989],
        .literal 2]
    let product : ArithmeticTree := .apply .multiply [.literal 0, .literal (-3), .literal 5]
    let regroupedProduct : ArithmeticTree :=
      .apply .multiply [.apply .multiply [.literal 5],
        .apply .multiply [.literal (-3), .literal (-0)]]
    BothGive ⟨3, .unevaluated⟩ scope scope 0 ⟨[]⟩ sum regroupedSum 9007199254740990 ∧
      BothGive ⟨3, .evaluated⟩ scope scope 0 ⟨[]⟩ product regroupedProduct 0 := by
  intro scope sum regroupedSum product regroupedProduct
  have large : IsInteger 9007199254740989 9007199254740989 := by unfold IsInteger; decide +kernel
  have two : IsInteger 2 2 := by unfold IsInteger; decide +kernel
  have less : IsInteger (-1) (-1) := by unfold IsInteger; decide +kernel
  have zero : IsInteger 0 0 := rfl
  have negativeZero : IsInteger (-0) 0 := by unfold IsInteger; decide +kernel
  have five : IsInteger 5 5 := by unfold IsInteger; decide +kernel
  have negative : IsInteger (-3) (-3) := by unfold IsInteger; decide +kernel
  have sumGathers : sum.Gathers .add [[9007199254740989], [[2], [-1]].flatten].flatten :=
    .apply (.cons (.literal large)
      (.cons (.apply (.cons (.literal two) (.cons (.literal less) .nil))) .nil))
  have regroupedSumGathers : regroupedSum.Gathers .add
      [[].flatten, [[-1], [9007199254740989]].flatten, [2]].flatten :=
    .apply (.cons (.apply .nil)
      (.cons (.apply (.cons (.literal less) (.cons (.literal large) .nil)))
        (.cons (.literal two) .nil)))
  have productGathers : product.Gathers .multiply [[0], [-3], [5]].flatten :=
    .apply (.cons (.literal zero) (.cons (.literal negative) (.cons (.literal five) .nil)))
  have regroupedProductGathers : regroupedProduct.Gathers .multiply
      [[[5]].flatten, [[-3], [0]].flatten].flatten :=
    .apply (.cons (.apply (.cons (.literal five) .nil))
      (.cons (.apply (.cons (.literal negative) (.cons (.literal negativeZero) .nil))) .nil))
  exact ⟨(order_and_grouping_make_no_difference (by decide) (by decide) (by decide) scope scope
      ⟨[]⟩).1 sumGathers regroupedSumGathers (by decide),
    (order_and_grouping_make_no_difference (by decide) (by decide) (by decide) scope scope
      ⟨[]⟩).2 productGathers regroupedProductGathers (by decide)⟩

end Evaluations

end TinyLisp
