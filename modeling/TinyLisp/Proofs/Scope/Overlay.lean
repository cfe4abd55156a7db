import Mathlib
import TinyLisp.Scope

/-!
The frames of a scope, laid over one another.

A name is looked up in the frames from the innermost one on, and then in the root. So what the
frames say about names is what a single frame could say, in which inner bindings have been put over
outer ones.
-/

set_option autoImplicit false

namespace TinyLisp

namespace Bindings

/-- No name has two entries. -/
def Distinct (entries : List (String × Value)) : Prop :=
  entries.Pairwise fun earlier later => earlier.1 ≠ later.1

theorem distinct_entries (bindings : Bindings) : Distinct bindings.entries := by
  apply bindings.ordered.imp
  intro earlier later before
  exact String.ne_of_lt before

theorem Distinct.mem_iff {entries : List (String × Value)} (distinct : Distinct entries)
    {name : String} {value : Value} :
    (name, value) ∈ entries ↔ entries.lookup name = some value := by
  rw [List.lookup_eq_some_iff]
  constructor
  · intro member
    obtain ⟨before, behind, split⟩ := List.append_of_mem member
    refine ⟨before, behind, split, ?_⟩
    intro other otherMember
    rw [split] at distinct
    have different := (List.pairwise_append.mp distinct).2.2 other otherMember _ List.mem_cons_self
    exact bne_iff_ne.mpr different.symm
  · intro found
    obtain ⟨before, behind, split, -⟩ := found
    rw [split]
    exact List.mem_append_right before List.mem_cons_self

theorem mem_entries_iff {bindings : Bindings} {name : String} {value : Value} :
    (name, value) ∈ bindings.entries ↔ bindings.find? name = some value :=
  bindings.distinct_entries.mem_iff

/-- Where no name comes twice, bindings that are put on top win over those below. -/
theorem find_insert_all {pairs : List (String × Value)} (distinct : Distinct pairs)
    (bindings : Bindings) (name : String) :
    (bindings.insertAll pairs).find? name = (pairs.lookup name).or (bindings.find? name) := by
  induction pairs generalizing bindings with
  | nil => rfl
  | cons pair pairs ih =>
      obtain ⟨bound, value⟩ := pair
      obtain ⟨fresh, laterDistinct⟩ := List.pairwise_cons.mp distinct
      change ((bindings.insert bound value).insertAll pairs).find? name = _
      rw [ih laterDistinct, find?_insert, lookup_cons_entry]
      by_cases same : name = bound
      · have unbound : pairs.lookup name = none := by
          rw [List.lookup_eq_none_iff]
          intro later member
          simpa [same] using fresh later member
        rw [unbound, if_pos same, if_pos same]
        rfl
      · rw [if_neg same, if_neg same]

@[simp] theorem find_overlay (inner outer : Bindings) (name : String) :
    (inner.overlay outer).find? name = (inner.find? name).or (outer.find? name) :=
  find_insert_all inner.distinct_entries outer name

theorem mem_of_find_insert_all {bindings : Bindings} {pairs : List (String × Value)}
    {name : String} {value : Value}
    (found : (bindings.insertAll pairs).find? name = some value) :
    (name, value) ∈ pairs ∨ bindings.find? name = some value := by
  induction pairs generalizing bindings with
  | nil => exact .inr found
  | cons pair pairs ih =>
      rcases ih found with later | earlier
      · exact .inl (List.mem_cons_of_mem _ later)
      · rw [find?_insert] at earlier
        split at earlier
        case isTrue same =>
          rw [same, ← Option.some.inj earlier]
          exact .inl List.mem_cons_self
        case isFalse => exact .inr earlier

theorem mem_of_find_of_list {pairs : List (String × Value)} {name : String} {value : Value}
    (found : (ofList pairs).find? name = some value) : (name, value) ∈ pairs := by
  rcases mem_of_find_insert_all found with member | impossible
  · exact member
  · contradiction

end Bindings

namespace Scope

/-- The value of a name in the frames, from the innermost one that binds it. -/
def inFrames? (scope : Scope) (name : String) : Option Value :=
  scope.frames.findSome? (·.find? name)

theorem find_eq_or (scope : Scope) (world : World) (name : String) :
    scope.find? world name = (scope.inFrames? name).or ((world.root scope.root).find? name) := by
  rw [find?, ← inFrames?]
  cases scope.inFrames? name <;> rfl

@[simp] theorem in_frames_push (scope : Scope) (frame : Bindings) (name : String) :
    (scope.push frame).inFrames? name = (frame.find? name).or (scope.inFrames? name) := by
  rw [inFrames?, push, List.findSome?_cons]
  cases frame.find? name <;> rfl

/-- What all the frames say, in one frame. -/
def merged (scope : Scope) : Bindings :=
  scope.frames.foldr Bindings.overlay .empty

theorem find_merged (scope : Scope) (name : String) :
    scope.merged.find? name = scope.inFrames? name := by
  obtain ⟨frames, root⟩ := scope
  induction frames with
  | nil => rfl
  | cons frame frames ih =>
      change (frame.overlay (merged ⟨frames, root⟩)).find? name = _
      rw [Bindings.find_overlay, ih]
      exact (in_frames_push ⟨frames, root⟩ frame name).symm

theorem in_frames_merged (scope : Scope) (name : String) :
    Scope.inFrames? ⟨[scope.merged], scope.root⟩ name = scope.inFrames? name := by
  rw [← find_merged scope]
  exact (in_frames_push ⟨[], scope.root⟩ scope.merged name).trans Option.or_none

end Scope

end TinyLisp
