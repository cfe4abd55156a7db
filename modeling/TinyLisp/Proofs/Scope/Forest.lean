import TinyLisp.Proofs.Scope.Overlay

/-!
Forests of scopes.

A history makes roots, pushes frames on scopes and binds globals, and it names each scope by its
place in the order of making. The chain of a scope leads from it through the scopes that it was
pushed on to a root. What a write through one scope shows in another is told by their two chains.
-/

set_option autoImplicit false

namespace TinyLisp

namespace World

theorem length_le_change_at (change : Bindings → Bindings) (index : Nat) (roots : List Bindings) :
    roots.length ≤ (changeAt change index roots).length := by
  fun_induction changeAt change index roots with
  | case1 => exact Nat.zero_le _
  | case2 => exact Nat.le_refl _
  | case3 => exact Nat.zero_le _
  | case4 index bindings rest ih => exact Nat.succ_le_succ ih

end World

namespace Scope

/-- A write is seen from the scopes over the same root that do not bind the name in a frame. -/
theorem get_set_global (reader writer : Scope) (world : World) (written : String) (value : Value)
    (name : String) :
    reader.get (writer.setGlobal world written value) name =
      if name = written ∧ reader.root = writer.root ∧ reader.inFrames? name = none then .ok value
      else reader.get world name := by
  unfold get setGlobal
  rw [find_eq_or, find_eq_or, World.root_write]
  cases inner : reader.inFrames? name with
  | some held => simp
  | none =>
      by_cases sameRoot : reader.root = writer.root
      · by_cases sameName : name = written <;> simp [sameRoot, sameName]
      · simp [sameRoot]

theorem get_push (scope : Scope) (frame : Bindings) (world : World) (name : String) :
    (scope.push frame).get world name =
      match frame.find? name with
      | some value => .ok value
      | none => scope.get world name := by
  unfold get
  rw [find_eq_or, find_eq_or, in_frames_push]
  cases frame.find? name <;> rfl

end Scope

/-- A step of a history. -/
inductive Operation where
  | addRoot
  | push (scope : Nat) (frame : Bindings)
  | setGlobal (scope : Nat) (name : String) (value : Value)

/-- A world and the scopes that have been made in it, in the order of making. -/
structure Forest where
  world : World
  scopes : List Scope

namespace Forest

def empty : Forest := ⟨.empty, []⟩

/-- One step. It takes the scope that it names to have been made. -/
def apply (forest : Forest) : Operation → Option Forest
  | .addRoot => some ⟨forest.world.addRoot.1, forest.scopes ++ [forest.world.addRoot.2]⟩
  | .push scope frame =>
      forest.scopes[scope]?.map fun below =>
        { forest with scopes := forest.scopes ++ [below.push frame] }
  | .setGlobal scope name value =>
      forest.scopes[scope]?.map fun writer =>
        { forest with world := writer.setGlobal forest.world name value }

def after (forest : Forest) (history : List Operation) : Option Forest :=
  history.foldlM apply forest

/-- The value of a name in a scope that has been made. -/
def get? (forest : Forest) (scope : Nat) (name : String) : Option (Except EvalError Value) :=
  forest.scopes[scope]?.map fun scope => scope.get forest.world name

end Forest

/-- How a scope was made: as a root, or by pushing a frame on a scope. -/
inductive Origin where
  | root
  | child (below : Nat) (frame : Bindings)

def Operation.origin? : Operation → Option Origin
  | .addRoot => some .root
  | .push scope frame => some (.child scope frame)
  | .setGlobal _ _ _ => none

/-- The origins of the scopes that a history makes, in the order of making. -/
def origins (history : List Operation) : List Origin :=
  history.filterMap Operation.origin?

/-- The way from a scope to its root, with the frames on it, the innermost first. -/
inductive Chain (made : List Origin) : Nat → Nat → List Bindings → Prop
  | root {scope : Nat} (isRoot : made[scope]? = some .root) : Chain made scope scope []
  | child {scope below root : Nat} {frame : Bindings} {frames : List Bindings}
      (isChild : made[scope]? = some (.child below frame)) (chain : Chain made below root frames) :
      Chain made scope root (frame :: frames)

namespace Forest

/-- What a scope has to do with its origin. -/
def IsMade (scopes : List Scope) (scope : Nat) : Origin → Prop
  | .root => ∃ number, scopes[scope]? = some ⟨[], number⟩
  | .child below frame => below < scope ∧
      ∃ inner, scopes[below]? = some inner ∧ scopes[scope]? = some (inner.push frame)

theorem get_of_extended {Item : Type} {items more : List Item} {index : Nat} {item : Item}
    (kept : items <+: more) (found : items[index]? = some item) : more[index]? = some item := by
  obtain ⟨bound, same⟩ := List.getElem?_eq_some_iff.mp found
  rw [← same]
  exact List.prefix_iff_getElem?.mp kept index bound

theorem get_concat_iff {Item : Type} {items : List Item} {last item : Item} {index : Nat} :
    (items ++ [last])[index]? = some item ↔
      items[index]? = some item ∨ (index = items.length ∧ last = item) := by
  grind

theorem IsMade.extend {scopes more : List Scope} {scope : Nat} {origin : Origin}
    (kept : scopes <+: more) (isMade : IsMade scopes scope origin) :
    IsMade more scope origin := by
  cases origin with
  | root =>
      obtain ⟨number, found⟩ := isMade
      exact ⟨number, get_of_extended kept found⟩
  | child below frame =>
      obtain ⟨smaller, inner, foundBelow, found⟩ := isMade
      exact ⟨smaller, inner, get_of_extended kept foundBelow, get_of_extended kept found⟩

/-- The scopes are those of the origins, and no two of the roots are the same. -/
structure Follows (made : List Origin) (forest : Forest) : Prop where
  count : forest.scopes.length = made.length
  isMade : ∀ {scope : Nat} {origin : Origin}, made[scope]? = some origin →
    IsMade forest.scopes scope origin
  bounded : ∀ scope ∈ forest.scopes, scope.root < forest.world.roots.length
  distinct : ∀ {first second number : Nat}, forest.scopes[first]? = some ⟨[], number⟩ →
    forest.scopes[second]? = some ⟨[], number⟩ → first = second

theorem follows_empty : Follows [] empty where
  count := rfl
  isMade := nofun
  bounded := nofun
  distinct := nofun

variable {made : List Origin} {forest next : Forest}

/-- A new scope is bound to a root of the world, and to a new one if it is a root itself. -/
theorem Follows.concat (follows : Follows made forest) {origin : Origin} {world : World}
    {last : Scope} (isMade : IsMade (forest.scopes ++ [last]) forest.scopes.length origin)
    (grown : forest.world.roots.length ≤ world.roots.length)
    (bounded : last.root < world.roots.length)
    (fresh : last.frames = [] → forest.world.roots.length ≤ last.root) :
    Follows (made ++ [origin]) ⟨world, forest.scopes ++ [last]⟩ where
  count := by simp [follows.count]
  isMade := by
    intro scope asked found
    rcases get_concat_iff.mp found with earlier | ⟨isLast, same⟩
    · exact (follows.isMade earlier).extend (List.prefix_append _ _)
    · rw [isLast, ← same, ← follows.count]
      exact isMade
  bounded := by
    intro scope member
    rcases List.mem_append.mp member with earlier | isLast
    · exact Nat.lt_of_lt_of_le (follows.bounded scope earlier) grown
    · rw [List.mem_singleton.mp isLast]
      exact bounded
  distinct := by
    -- An older root has a number below the bound of the world, and a new root has not.
    have apart : ∀ {first number : Nat}, forest.scopes[first]? = some ⟨[], number⟩ →
        last ≠ ⟨[], number⟩ := by
      intro first number found same
      have known := follows.bounded _ (List.mem_of_getElem? found)
      have new := fresh (by rw [same])
      rw [same] at new
      exact Nat.not_le_of_lt known new
    intro first second number foundFirst foundSecond
    rcases get_concat_iff.mp foundFirst with first | ⟨first, sameFirst⟩ <;>
      rcases get_concat_iff.mp foundSecond with second | ⟨second, sameSecond⟩
    · exact follows.distinct first second
    · exact absurd sameSecond (apart first)
    · exact absurd sameFirst (apart second)
    · rw [first, second]

theorem follows_apply (follows : Follows made forest) {operation : Operation}
    (applied : forest.apply operation = some next) :
    Follows (made ++ operation.origin?.toList) next := by
  cases operation with
  | addRoot =>
      rw [← Option.some.inj applied]
      apply follows.concat
      · exact ⟨_, List.getElem?_concat_length⟩
      · simp [World.addRoot]
      · simp [World.addRoot]
      · intro isRoot
        exact Nat.le_refl _
  | push scope frame =>
      obtain ⟨inner, found, rfl⟩ := Option.map_eq_some_iff.mp applied
      apply follows.concat
      · obtain ⟨bound, -⟩ := List.getElem?_eq_some_iff.mp found
        exact ⟨bound, inner, get_of_extended (List.prefix_append _ _) found,
          List.getElem?_concat_length⟩
      · exact Nat.le_refl _
      · exact follows.bounded inner (List.mem_of_getElem? found)
      · intro impossible
        contradiction
  | setGlobal scope name value =>
      obtain ⟨writer, found, rfl⟩ := Option.map_eq_some_iff.mp applied
      rw [Operation.origin?, Option.toList_none, List.append_nil]
      refine ⟨follows.count, follows.isMade, ?_, follows.distinct⟩
      intro scope member
      exact Nat.lt_of_lt_of_le (follows.bounded scope member) (World.length_le_change_at ..)

theorem after_concat (forest : Forest) (history : List Operation) (operation : Operation) :
    forest.after (history ++ [operation]) =
      (forest.after history).bind (apply · operation) := by
  rw [after, List.foldlM_append]
  simp only [List.foldlM_cons, List.foldlM_nil, bind_pure]
  rfl

theorem follows_after {history : List Operation} (reached : empty.after history = some forest) :
    Follows (origins history) forest := by
  induction history using List.reverseRecOn generalizing forest with
  | nil =>
      rw [← Option.some.inj reached]
      exact follows_empty
  | append_singleton history operation ih =>
      rw [after_concat] at reached
      obtain ⟨before, reachedBefore, applied⟩ := Option.bind_eq_some_iff.mp reached
      have extended := follows_apply (ih reachedBefore) applied
      rw [origins, List.filterMap_append]
      cases operation <;> exact extended

theorem scopes_apply {operation : Operation} (applied : forest.apply operation = some next) :
    forest.scopes <+: next.scopes := by
  cases operation with
  | addRoot =>
      rw [← Option.some.inj applied]
      exact List.prefix_append _ _
  | push scope frame =>
      obtain ⟨inner, -, rfl⟩ := Option.map_eq_some_iff.mp applied
      exact List.prefix_append _ _
  | setGlobal scope name value =>
      obtain ⟨writer, -, rfl⟩ := Option.map_eq_some_iff.mp applied
      exact List.prefix_rfl

theorem scopes_after {history : List Operation} (reached : forest.after history = some next) :
    forest.scopes <+: next.scopes := by
  induction history using List.reverseRecOn generalizing next with
  | nil =>
      rw [← Option.some.inj reached]
  | append_singleton history operation ih =>
      rw [after_concat] at reached
      obtain ⟨before, reachedBefore, applied⟩ := Option.bind_eq_some_iff.mp reached
      exact (ih reachedBefore).trans (scopes_apply applied)

theorem Follows.scope_of_chain (follows : Follows made forest) {scope root : Nat}
    {frames : List Bindings} (chain : Chain made scope root frames) :
    ∃ number, forest.scopes[scope]? = some ⟨frames, number⟩ ∧
      forest.scopes[root]? = some ⟨[], number⟩ := by
  induction chain with
  | root isRoot =>
      obtain ⟨number, found⟩ := follows.isMade isRoot
      exact ⟨number, found, found⟩
  | child isChild chain ih =>
      obtain ⟨number, foundBelow, foundRoot⟩ := ih
      obtain ⟨-, inner, foundInner, found⟩ := follows.isMade isChild
      rw [← Option.some.inj (foundBelow.symm.trans foundInner)] at found
      exact ⟨number, found, foundRoot⟩

theorem Follows.exists_chain (follows : Follows made forest) {scope : Nat}
    (bound : scope < made.length) : ∃ root frames, Chain made scope root frames := by
  -- The way ends because every scope was pushed on an older one.
  induction scope using Nat.strong_induction_on with
  | h scope ih =>
      have found := List.getElem?_eq_getElem bound
      generalize made[scope] = origin at found
      cases origin with
      | root => exact ⟨scope, [], .root found⟩
      | child below frame =>
          obtain ⟨smaller, -⟩ := follows.isMade found
          obtain ⟨root, frames, chain⟩ := ih below smaller (smaller.trans bound)
          exact ⟨root, frame :: frames, .child found chain⟩

theorem exists_push {scope : Nat} {inner : Scope} (found : forest.scopes[scope]? = some inner)
    (frame : Bindings) : ∃ next, forest.apply (.push scope frame) = some next := by
  rw [apply, found]
  exact ⟨_, rfl⟩

theorem exists_set_global {scope : Nat} {writer : Scope}
    (found : forest.scopes[scope]? = some writer) (name : String) (value : Value) :
    ∃ next, forest.apply (.setGlobal scope name value) = some next := by
  rw [apply, found]
  exact ⟨_, rfl⟩

theorem get_of_scope {scope : Nat} {held : Scope} (found : forest.scopes[scope]? = some held)
    (name : String) : forest.get? scope name = some (held.get forest.world name) := by
  rw [get?, found]
  rfl

theorem Follows.get_set_global (follows : Follows made forest) {writer writerRoot : Nat}
    {writerFrames : List Bindings} (writerChain : Chain made writer writerRoot writerFrames)
    {written : String} {value : Value}
    (applied : forest.apply (.setGlobal writer written value) = some next)
    {reader readerRoot : Nat} {readerFrames : List Bindings}
    (readerChain : Chain made reader readerRoot readerFrames) (name : String) :
    next.get? reader name =
      if name = written ∧ readerRoot = writerRoot ∧
          ∀ frame ∈ readerFrames, frame.find? name = none
      then some (.ok value)
      else forest.get? reader name := by
  obtain ⟨writerNumber, foundWriter, foundWriterRoot⟩ := follows.scope_of_chain writerChain
  obtain ⟨readerNumber, foundReader, foundReaderRoot⟩ := follows.scope_of_chain readerChain
  have sameRoot : readerNumber = writerNumber ↔ readerRoot = writerRoot := by
    constructor
    · intro same
      rw [same] at foundReaderRoot
      exact follows.distinct foundReaderRoot foundWriterRoot
    · intro same
      rw [same, foundWriterRoot] at foundReaderRoot
      exact (congrArg Scope.root (Option.some.inj foundReaderRoot)).symm
  have unbound : Scope.inFrames? ⟨readerFrames, readerNumber⟩ name = none ↔
      ∀ frame ∈ readerFrames, frame.find? name = none := List.findSome?_eq_none_iff
  rw [get_of_scope (get_of_extended (scopes_apply applied) foundReader), get_of_scope foundReader]
  rw [apply, foundWriter] at applied
  rw [← Option.some.inj applied, Scope.get_set_global, apply_ite some]
  simp only [← unbound, ← sameRoot]

theorem get_pushed {scope : Nat} {frame : Bindings}
    (applied : forest.apply (.push scope frame) = some next) {later : List Operation}
    {future : Forest} (reached : next.after later = some future) (name : String) :
    future.get? forest.scopes.length name =
      match frame.find? name with
      | some value => some (.ok value)
      | none => future.get? scope name := by
  obtain ⟨inner, foundInner, rfl⟩ := Option.map_eq_some_iff.mp applied
  have foundNew : future.scopes[forest.scopes.length]? = some (inner.push frame) :=
    get_of_extended (scopes_after reached) List.getElem?_concat_length
  have foundBelow : future.scopes[scope]? = some inner :=
    get_of_extended ((scopes_apply applied).trans (scopes_after reached)) foundInner
  rw [get_of_scope foundNew, get_of_scope foundBelow, Scope.get_push]
  cases frame.find? name <;> rfl

/-- In every forest, a write shows in the scopes over the same root that have no frame for the
name, and nowhere else; and a push shows in no scope but the new one, which binds what its frame
binds and follows the scope below it in all else for ever. -/
theorem reads_follow_writes {history : List Operation}
    (reached : empty.after history = some forest) :
    (∀ scope < forest.scopes.length,
      ∃ root frames, Chain (origins history) scope root frames) ∧
    (∀ {writer writerRoot : Nat} {writerFrames : List Bindings},
      Chain (origins history) writer writerRoot writerFrames →
      ∀ written value, ∃ next, forest.apply (.setGlobal writer written value) = some next ∧
        ∀ {reader readerRoot : Nat} {readerFrames : List Bindings},
          Chain (origins history) reader readerRoot readerFrames →
          ∀ name, next.get? reader name =
            if name = written ∧ readerRoot = writerRoot ∧
                ∀ frame ∈ readerFrames, frame.find? name = none
            then some (.ok value)
            else forest.get? reader name) ∧
    ∀ scope < forest.scopes.length, ∀ frame,
      ∃ next, forest.apply (.push scope frame) = some next ∧
        (∀ other < forest.scopes.length, ∀ name,
          next.get? other name = forest.get? other name) ∧
        ∀ {later : List Operation} {future : Forest}, next.after later = some future →
          ∀ name, future.get? forest.scopes.length name =
            match frame.find? name with
            | some value => some (.ok value)
            | none => future.get? scope name := by
  have follows := follows_after reached
  refine ⟨?_, ?_, ?_⟩
  · intro scope bound
    exact follows.exists_chain (follows.count ▸ bound)
  · intro writer writerRoot writerFrames writerChain written value
    obtain ⟨number, foundWriter, -⟩ := follows.scope_of_chain writerChain
    obtain ⟨next, applied⟩ := exists_set_global foundWriter written value
    refine ⟨next, applied, ?_⟩
    intro reader readerRoot readerFrames readerChain name
    exact follows.get_set_global writerChain applied readerChain name
  · intro scope bound frame
    obtain ⟨next, applied⟩ := exists_push (List.getElem?_eq_getElem bound) frame
    refine ⟨next, applied, ?_, ?_⟩
    · intro other known name
      obtain ⟨inner, -, rfl⟩ := Option.map_eq_some_iff.mp applied
      rw [get?, List.getElem?_append_left known, get?]
    · intro later future reachedLater name
      exact get_pushed applied reachedLater name

-- Scopes 0 and 1 are roots, 2 and 4 are pushed on 0, and 3 is pushed on 2, which shadows the name.
theorem write_passes_over_shadowing :
    let frame := Bindings.ofList [("x", .symbol "shadow")]
    let history : List Operation :=
      [.addRoot, .addRoot, .push 0 frame, .push 2 .empty, .push 0 .empty]
    let forest : Forest :=
      ⟨⟨[.empty, .empty]⟩,
        [⟨[], 0⟩, ⟨[], 1⟩, ⟨[frame], 0⟩, ⟨[.empty, frame], 0⟩, ⟨[.empty], 0⟩]⟩
    empty.after history = some forest ∧
      (∃ next, forest.apply (.setGlobal 3 "x" .nil) = some next ∧
        next.get? 0 "x" = some (.ok .nil) ∧ next.get? 4 "x" = some (.ok .nil) ∧
        next.get? 3 "x" = some (.ok (.symbol "shadow")) ∧
        next.get? 1 "x" = some (.error (.unboundSymbol "x"))) ∧
      ∃ next future, forest.apply (.push 4 .empty) = some next ∧
        next.after [.setGlobal 3 "x" .nil] = some future ∧
        future.get? 5 "x" = some (.ok .nil) := by
  intro frame history forest
  have reached : empty.after history = some forest := rfl
  obtain ⟨-, writes, pushes⟩ := reads_follow_writes reached
  have first : Chain (origins history) 0 0 [] := .root rfl
  have second : Chain (origins history) 1 1 [] := .root rfl
  have shadowed : Chain (origins history) 3 0 [.empty, frame] := .child rfl (.child rfl first)
  have sibling : Chain (origins history) 4 0 [.empty] := .child rfl first
  refine ⟨reached, ?_, ?_⟩
  · obtain ⟨next, applied, reads⟩ := writes shadowed "x" .nil
    refine ⟨next, applied, ?_, ?_, ?_, ?_⟩
    · rw [reads first]
      simp
    · rw [reads sibling]
      simp
    · rw [reads shadowed, if_neg (by simp [frame, Bindings.ofList, Bindings.insertAll])]
      cbv
    · rw [reads second, if_neg (by simp)]
      cbv
  · obtain ⟨next, applied, -, follows⟩ := pushes 4 (by decide) .empty
    have written : next.after [.setGlobal 3 "x" .nil] =
        some ⟨⟨[.ofList [("x", .nil)], .empty]⟩, next.scopes⟩ := by
      rw [← Option.some.inj applied]
      rfl
    refine ⟨next, _, applied, written, (follows written "x").trans ?_⟩
    rw [← Option.some.inj applied]
    rfl

end Forest

end TinyLisp
