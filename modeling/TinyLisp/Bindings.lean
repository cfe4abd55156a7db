import TinyLisp.Value.Basic

/-!
Bindings: what one scope says about names.

The entries stand in increasing order of name, by code point, and no name has two entries. So two
bindings that agree on every name are equal.
-/

set_option autoImplicit false

namespace TinyLisp

structure Bindings where
  entries : List (String × Value)
  ordered : entries.Pairwise fun earlier later => earlier.1 < later.1

namespace Bindings

/-- Put an entry in its place, over an earlier entry for the same name. -/
def insertEntry (name : String) (value : Value) :
    List (String × Value) → List (String × Value)
  | [] => [(name, value)]
  | entry :: rest =>
      if name < entry.1 then (name, value) :: entry :: rest
      else if name = entry.1 then (name, value) :: rest
      else entry :: insertEntry name value rest

theorem mem_insertEntry {name : String} {value : Value} {entries : List (String × Value)}
    {entry : String × Value} (member : entry ∈ insertEntry name value entries) :
    entry = (name, value) ∨ entry ∈ entries := by
  induction entries with
  | nil => exact .inl (List.mem_singleton.mp member)
  | cons head rest ih =>
      simp only [insertEntry] at member
      split at member
      · exact List.mem_cons.mp member
      · split at member
        · exact (List.mem_cons.mp member).imp_right (List.mem_cons_of_mem _)
        · rcases List.mem_cons.mp member with rfl | member
          · exact .inr List.mem_cons_self
          · exact (ih member).imp_right (List.mem_cons_of_mem _)

theorem ordered_insertEntry (name : String) (value : Value) {entries : List (String × Value)}
    (ordered : entries.Pairwise fun earlier later => earlier.1 < later.1) :
    (insertEntry name value entries).Pairwise fun earlier later => earlier.1 < later.1 := by
  induction entries with
  | nil => exact List.pairwise_singleton _ _
  | cons head rest ih =>
      have above := (List.pairwise_cons.mp ordered).1
      have tailOrdered := (List.pairwise_cons.mp ordered).2
      simp only [insertEntry]
      split
      case isTrue before =>
        refine List.pairwise_cons.mpr ⟨fun entry member => ?_, ordered⟩
        rcases List.mem_cons.mp member with rfl | member
        · exact before
        · exact String.lt_trans before (above entry member)
      case isFalse notBefore =>
        split
        case isTrue same =>
          exact List.pairwise_cons.mpr ⟨fun entry member => same ▸ above entry member, tailOrdered⟩
        case isFalse different =>
          refine List.pairwise_cons.mpr ⟨fun entry member => ?_, ih tailOrdered⟩
          rcases mem_insertEntry member with rfl | member
          · exact String.not_le.mp fun le =>
              different (String.le_antisymm le (String.not_lt.mp notBefore))
          · exact above entry member

theorem lookup_cons_entry (name : String) (value : Value) (rest : List (String × Value))
    (asked : String) :
    ((name, value) :: rest).lookup asked =
      if asked = name then some value else rest.lookup asked := by
  rw [List.lookup_cons]
  by_cases same : asked = name
  · simp [same]
  · simp [beq_eq_false_iff_ne.mpr same, same]

theorem lookup_insertEntry (name : String) (value : Value) (entries : List (String × Value))
    (asked : String) :
    (insertEntry name value entries).lookup asked =
      if asked = name then some value else entries.lookup asked := by
  induction entries with
  | nil => exact lookup_cons_entry name value [] asked
  | cons head rest ih =>
      obtain ⟨other, held⟩ := head
      simp only [insertEntry]
      split
      · exact lookup_cons_entry name value _ asked
      · split
        case isTrue same =>
          subst same
          by_cases found : asked = name <;> simp [lookup_cons_entry, found]
        case isFalse different =>
          rw [lookup_cons_entry, lookup_cons_entry, ih]
          by_cases found : asked = name
          · simp [found, different]
          · simp [found]

def empty : Bindings := ⟨[], .nil⟩

/-- The value bound to a name. -/
def find? (bindings : Bindings) (name : String) : Option Value :=
  bindings.entries.lookup name

/-- Bind a name, over any earlier value of it. -/
def insert (bindings : Bindings) (name : String) (value : Value) : Bindings :=
  ⟨insertEntry name value bindings.entries, ordered_insertEntry name value bindings.ordered⟩

@[simp] theorem find?_empty (name : String) : empty.find? name = none := rfl

/-- The name that was bound has its new value, and every other name is as before. -/
@[simp] theorem find?_insert (bindings : Bindings) (name : String) (value : Value)
    (asked : String) :
    (bindings.insert name value).find? asked =
      if asked = name then some value else bindings.find? asked :=
  lookup_insertEntry name value bindings.entries asked

/-- Bind names one after the other, so that a later pair wins over an earlier one. -/
def insertAll (bindings : Bindings) (pairs : List (String × Value)) : Bindings :=
  pairs.foldl (fun earlier pair => earlier.insert pair.1 pair.2) bindings

def ofList (pairs : List (String × Value)) : Bindings :=
  empty.insertAll pairs

/-- Both bindings, the inner one first. -/
def overlay (inner outer : Bindings) : Bindings :=
  outer.insertAll inner.entries

end Bindings

end TinyLisp
