import TinyLisp.Proofs.Binary64
import TinyLisp.Proofs.Value.Nodes
import TinyLisp.Value.Reader

/-!
Data: the values that texts can spell.

A datum is made of symbols whose names read as symbols, of text without parentheses, of numbers and
of lists, and no node of it lies under more lists than may be open at once. A readable value is a
datum without NaNs.
-/

set_option autoImplicit false

namespace TinyLisp

/-- A name that stands for a symbol wherever it is read. -/
structure ReadableName (name : String) : Prop where
  nonempty : name ≠ ""
  plain : ∀ char ∈ name.toList, char ∉ ['"', '(', ')', ' ', '\r', '\n']
  notNumeral : Numeral.read? name.toList = none
  notNumeric : Numeral.looksNumeric name.toList = false

theorem forbidden_iff (char : Char) :
    isForbiddenInSymbol char = true ↔ char ∈ ['"', '(', ')', ' ', '\r', '\n'] := by
  simp [isForbiddenInSymbol, Token.isSeparator, or_assoc]

theorem symbol_name_iff (name : String) :
    isSymbolName name.toList = true ↔
      name ≠ "" ∧ ∀ char ∈ name.toList, char ∉ ['"', '(', ')', ' ', '\r', '\n'] := by
  have empty : name.toList.isEmpty = false ↔ name ≠ "" := by
    rw [List.isEmpty_eq_false_iff, ne_eq, String.toList_eq_nil_iff]
  have clean : name.toList.any isForbiddenInSymbol = false ↔
      ∀ char ∈ name.toList, char ∉ ['"', '(', ')', ' ', '\r', '\n'] := by
    rw [List.any_eq_false]
    simp only [forbidden_iff]
  rw [isSymbolName, Bool.and_eq_true, Bool.not_eq_true', Bool.not_eq_true', empty, clean]

def ParenFree (chars : List Char) : Prop :=
  '(' ∉ chars ∧ ')' ∉ chars

theorem ParenFree.of_subset {part whole : List Char} (free : ParenFree whole)
    (inside : ∀ char ∈ part, char ∈ whole) : ParenFree part := by
  constructor
  · intro member
    exact free.1 (inside _ member)
  · intro member
    exact free.2 (inside _ member)

namespace Value

/-- What a datum asks of each of its nodes. Only functions are never a part of one. -/
def IsDatumNode : Value → Prop
  | .symbol name => ReadableName name
  | .text contents => ParenFree contents.toList
  | .number _ => True
  | .list _ => True
  | .function _ _ => False

/-- A value that is a datum where so many lists stand around it. -/
def DatumAt (depth : Nat) (value : Value) : Prop :=
  ∀ below node, value.HasNode below node → depth + below < maxNesting ∧ node.IsDatumNode

def Datum (value : Value) : Prop :=
  value.DatumAt 0

def NanFree (value : Value) : Prop :=
  ∀ depth number, value.HasNode depth (.number number) → number.isNaN = false

def Readable (value : Value) : Prop :=
  value.Datum ∧ value.NanFree

theorem datum_at_node {depth : Nat} {value : Value} (datum : value.DatumAt depth) :
    depth < maxNesting ∧ value.IsDatumNode :=
  datum 0 value (.root value)

theorem datum_at_list_iff {depth : Nat} {elements : List Value} :
    (Value.list elements).DatumAt depth ↔
      depth < maxNesting ∧ ∀ element ∈ elements, element.DatumAt (depth + 1) := by
  constructor
  · intro datum
    refine ⟨(datum_at_node datum).1, fun element member below node inside => ?_⟩
    have held := datum (below + 1) node (.element member inside)
    exact ⟨by omega, held.2⟩
  · rintro ⟨bound, each⟩ below node inside
    cases inside with
    | root => exact ⟨bound, trivial⟩
    | element member inside =>
        have held := each _ member _ _ inside
        exact ⟨by omega, held.2⟩

theorem datum_at_number {depth : Nat} (bound : depth < maxNesting) (number : Float) :
    (Value.number number).DatumAt depth := by
  intro below node inside
  cases inside
  exact ⟨bound, trivial⟩

theorem not_datum_at_function {depth : Nat} {params : List String} {body : List Value} :
    ¬(Value.function params body).DatumAt depth := by
  intro datum
  exact (datum_at_node datum).2

/-- Fewer lists around a datum leave it one. -/
theorem datum_at_mono {depth less : Nat} {value : Value} (datum : value.DatumAt depth)
    (fewer : less ≤ depth) : value.DatumAt less := by
  intro below node inside
  have held := datum below node inside
  exact ⟨by omega, held.2⟩

theorem nan_free_list_iff {elements : List Value} :
    (Value.list elements).NanFree ↔ ∀ element ∈ elements, element.NanFree := by
  constructor
  · intro free element member depth number inside
    exact free (depth + 1) number (.element member inside)
  · intro each depth number inside
    cases inside with
    | element member inside => exact each _ member _ number inside

theorem nan_free_number_iff {number : Float} :
    (Value.number number).NanFree ↔ number.isNaN = false := by
  constructor
  · intro free
    exact free 0 number (.root _)
  · intro notNan depth other inside
    cases inside
    exact notNan

end Value

end TinyLisp
