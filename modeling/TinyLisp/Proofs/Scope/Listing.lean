import TinyLisp.Proofs.Scope.Forest

/-!
Listing what is visible.

A scope lists every name that it sees with the value that a look-up gives, in increasing order of
name. Increasing names leave one way to write entries down, so the listing can also be made by
collecting the entries from the innermost frame out, as long as the first entry for a name stays and
all of them are sorted at the end. The order in which a frame gives up its entries makes no
difference.
-/

set_option autoImplicit false

namespace TinyLisp

namespace Bindings

theorem Distinct.of_perm {entries reordered : List (String × Value)} (distinct : Distinct entries)
    (same : reordered.Perm entries) : Distinct reordered :=
  (same.pairwise_iff Ne.symm).mpr distinct

theorem Distinct.lookup_of_perm {entries reordered : List (String × Value)}
    (distinct : Distinct entries) (same : reordered.Perm entries) (name : String) :
    reordered.lookup name = entries.lookup name := by
  apply Option.ext
  intro value
  rw [← distinct.mem_iff, ← (distinct.of_perm same).mem_iff]
  exact same.mem_iff

def Increasing (entries : List (String × Value)) : Prop :=
  entries.Pairwise fun earlier later => earlier.1 < later.1

theorem Increasing.nodup {entries : List (String × Value)} (increasing : Increasing entries) :
    entries.Nodup := by
  apply increasing.imp
  intro earlier later before same
  rw [same] at before
  exact String.lt_irrefl _ before

/-- Entries with increasing names are determined by which entries they are. -/
theorem Increasing.eq_of_mem_iff {left right : List (String × Value)}
    (leftIncreasing : Increasing left) (rightIncreasing : Increasing right)
    (same : ∀ entry, entry ∈ left ↔ entry ∈ right) : left = right := by
  have reordered : left.Perm right :=
    (List.perm_ext_iff_of_nodup leftIncreasing.nodup rightIncreasing.nodup).mpr same
  apply reordered.eq_of_pairwise _ leftIncreasing rightIncreasing
  intro first second _ _ before after
  exact absurd (String.lt_trans before after) (String.lt_irrefl _)

/-- Go through entries one after the other, and keep an entry if none before it has its name. -/
def collect (kept : List (String × Value)) : List (String × Value) → List (String × Value)
  | [] => kept
  | entry :: rest =>
      if (kept.lookup entry.1).isSome then collect kept rest else collect (kept ++ [entry]) rest

theorem lookup_collect (kept entries : List (String × Value)) (name : String) :
    (collect kept entries).lookup name = (kept.lookup name).or (entries.lookup name) := by
  induction entries generalizing kept with
  | nil => simp [collect]
  | cons entry rest ih =>
      obtain ⟨bound, value⟩ := entry
      rw [collect, lookup_cons_entry]
      split
      case isTrue known =>
        rw [ih]
        by_cases same : name = bound
        · obtain ⟨held, found⟩ := Option.isSome_iff_exists.mp known
          rw [same, found, Option.some_or, Option.some_or]
        · rw [if_neg same]
      case isFalse new =>
        rw [ih, List.lookup_append, lookup_cons_entry, Option.or_assoc]
        by_cases same : name = bound <;> simp [same]

theorem distinct_collect {kept : List (String × Value)} (distinct : Distinct kept)
    (entries : List (String × Value)) : Distinct (collect kept entries) := by
  induction entries generalizing kept with
  | nil => exact distinct
  | cons entry rest ih =>
      rw [collect]
      split
      case isTrue known => exact ih distinct
      case isFalse new =>
        apply ih
        refine List.pairwise_append.mpr ⟨distinct, List.pairwise_singleton _ _, ?_⟩
        intro earlier member last isLast same
        rw [List.mem_singleton.mp isLast] at same
        have found : kept.lookup entry.1 = some earlier.2 := by
          rw [← same]
          exact distinct.mem_iff.mp member
        rw [found] at new
        exact new rfl

/-- The entries of several bindings, where each of them gives its own up in some order. -/
def GivenUp (visits : List (List (String × Value))) (visited : List Bindings) : Prop :=
  List.Forall₂ (fun visit bindings => visit.Perm bindings.entries) visits visited

theorem GivenUp.lookup_flatten {visits : List (List (String × Value))} {visited : List Bindings}
    (givenUp : GivenUp visits visited) (name : String) :
    visits.flatten.lookup name = visited.findSome? (·.find? name) := by
  induction givenUp with
  | nil => rfl
  | @cons visit bindings visits visited reordered _ ih =>
      have first : visit.lookup name = bindings.find? name :=
        bindings.distinct_entries.lookup_of_perm reordered name
      rw [List.flatten_cons, List.lookup_append, ih, first, List.findSome?_cons]
      cases bindings.find? name <;> rfl

end Bindings

namespace Scope

theorem find_bindings (scope : Scope) (world : World) (name : String) :
    (scope.bindings world).find? name = scope.find? world name := by
  obtain ⟨frames, root⟩ := scope
  rw [find_eq_or]
  induction frames with
  | nil => rfl
  | cons frame frames ih =>
      change (frame.overlay (bindings ⟨frames, root⟩ world)).find? name =
        (inFrames? (push ⟨frames, root⟩ frame) name).or _
      rw [Bindings.find_overlay, ih, in_frames_push, Option.or_assoc]

theorem mem_bindings_iff (scope : Scope) (world : World) (name : String) (value : Value) :
    (name, value) ∈ (scope.bindings world).entries ↔ scope.get world name = .ok value := by
  rw [Bindings.mem_entries_iff, find_bindings, get]
  cases scope.find? world name <;> simp

theorem get_unbound_iff (scope : Scope) (world : World) (name : String) :
    scope.get world name = .error (.unboundSymbol name) ↔
      ∀ value, (name, value) ∉ (scope.bindings world).entries := by
  simp only [mem_bindings_iff, get]
  cases scope.find? world name <;> simp

/-- Entries that are collected from the innermost frame out and then sorted are the listing. -/
theorem eq_bindings_of_collected (scope : Scope) (world : World)
    {visits : List (List (String × Value))} {sorted : List (String × Value)}
    (givenUp : Bindings.GivenUp visits (scope.frames ++ [world.root scope.root]))
    (collected : sorted.Perm (Bindings.collect [] visits.flatten))
    (nondecreasing : sorted.Pairwise fun earlier later => earlier.1 ≤ later.1) :
    sorted = (scope.bindings world).entries := by
  have distinct := Bindings.distinct_collect List.Pairwise.nil visits.flatten
  have increasing : Bindings.Increasing sorted := by
    apply (nondecreasing.and (distinct.of_perm collected)).imp
    intro earlier later both
    exact String.not_le.mp fun back => both.2 (String.le_antisymm both.1 back)
  apply increasing.eq_of_mem_iff (scope.bindings world).ordered
  intro entry
  obtain ⟨name, value⟩ := entry
  have visible : (Bindings.collect [] visits.flatten).lookup name = scope.find? world name := by
    rw [Bindings.lookup_collect, givenUp.lookup_flatten, List.findSome?_append, find_eq_or]
    simp [inFrames?]
  rw [collected.mem_iff, distinct.mem_iff, visible, Bindings.mem_entries_iff, find_bindings]

end Scope

namespace Forest

/-- Everything that is visible from a scope that has been made. -/
def bindings? (forest : Forest) (scope : Nat) : Option Bindings :=
  forest.scopes[scope]?.map fun scope => scope.bindings forest.world

theorem bindings_of_scope {forest : Forest} {scope : Nat} {held : Scope}
    (found : forest.scopes[scope]? = some held) :
    forest.bindings? scope = some (held.bindings forest.world) := by
  rw [bindings?, found]
  rfl

/-- In every forest, the listing of a scope has increasing names, an entry is in it exactly if
reading the name gives its value, and reading a name fails exactly if the name is not in it. Nothing
else comes from collecting the entries on the way to the root, the first one for each name, in
whatever order the scopes give theirs up, and sorting them by name. -/
theorem listing_agrees_with_reading {history : List Operation} {forest : Forest}
    (reached : empty.after history = some forest) :
    (∀ scope < forest.scopes.length,
      ∃ root frames, Chain (origins history) scope root frames) ∧
    ∀ {scope root : Nat} {frames : List Bindings}, Chain (origins history) scope root frames →
      ∃ listed globals, forest.bindings? scope = some listed ∧
        forest.bindings? root = some globals ∧
        Bindings.Increasing listed.entries ∧
        (∀ name value,
          (name, value) ∈ listed.entries ↔ forest.get? scope name = some (.ok value)) ∧
        (∀ name, forest.get? scope name = some (.error (.unboundSymbol name)) ↔
          ∀ value, (name, value) ∉ listed.entries) ∧
        ∀ visits sorted, Bindings.GivenUp visits (frames ++ [globals]) →
          sorted.Perm (Bindings.collect [] visits.flatten) →
          (sorted.Pairwise fun earlier later => earlier.1 ≤ later.1) →
          sorted = listed.entries := by
  have follows := follows_after reached
  constructor
  · intro scope bound
    exact follows.exists_chain (follows.count ▸ bound)
  · intro scope root frames chain
    obtain ⟨number, foundScope, foundRoot⟩ := follows.scope_of_chain chain
    refine ⟨_, _, bindings_of_scope foundScope, bindings_of_scope foundRoot, Bindings.ordered _,
      ?_, ?_, ?_⟩
    · intro name value
      rw [Scope.mem_bindings_iff, get_of_scope foundScope, Option.some.injEq]
    · intro name
      rw [← Scope.get_unbound_iff, get_of_scope foundScope, Option.some.injEq]
    · intro visits sorted givenUp collected nondecreasing
      exact Scope.eq_bindings_of_collected ⟨frames, number⟩ forest.world givenUp collected
        nondecreasing

-- The frame and the root both bind the second name, and neither gives its entries up in order.
theorem shadowed_name_is_listed_once :
    let frame := Bindings.ofList [("b", .symbol "inner"), ("c", .symbol "inner")]
    let history : List Operation :=
      [.addRoot, .push 0 frame, .setGlobal 0 "b" (.symbol "outer"),
        .setGlobal 1 "a" (.symbol "outer")]
    let forest : Forest :=
      ⟨⟨[.ofList [("a", .symbol "outer"), ("b", .symbol "outer")]]⟩, [⟨[], 0⟩, ⟨[frame], 0⟩]⟩
    empty.after history = some forest ∧
      (∃ listed, forest.bindings? 1 = some listed ∧
        listed.entries =
          [("a", .symbol "outer"), ("b", .symbol "inner"), ("c", .symbol "inner")]) ∧
      forest.get? 1 "b" = some (.ok (.symbol "inner")) ∧
      forest.get? 1 "d" = some (.error (.unboundSymbol "d")) := by
  intro frame history forest
  have reached : empty.after history = some forest := rfl
  have chain : Chain (origins history) 1 0 [frame] := .child rfl (.root rfl)
  obtain ⟨listed, globals, listing, rootListing, -, agree, unbound, collected⟩ :=
    (listing_agrees_with_reading reached).2 chain
  have sorted : [("a", Value.symbol "outer"), ("b", .symbol "inner"), ("c", .symbol "inner")] =
      listed.entries := by
    apply collected [[("c", .symbol "inner"), ("b", .symbol "inner")],
      [("b", .symbol "outer"), ("a", .symbol "outer")]]
    · rw [← Option.some.inj rootListing]
      exact .cons (.swap ..) (.cons (.swap ..) .nil)
    · have kept : Bindings.collect [] [[("c", Value.symbol "inner"), ("b", .symbol "inner")],
          [("b", .symbol "outer"), ("a", .symbol "outer")]].flatten =
          [("c", .symbol "inner"), ("b", .symbol "inner"), ("a", .symbol "outer")] := rfl
      rw [kept]
      exact List.reverse_perm [("c", Value.symbol "inner"), ("b", .symbol "inner"),
        ("a", .symbol "outer")]
    · simp
  refine ⟨reached, ⟨listed, listing, sorted.symm⟩, ?_, ?_⟩
  · rw [← agree, ← sorted]
    simp
  · rw [unbound, ← sorted]
    simp

end Forest

end TinyLisp
