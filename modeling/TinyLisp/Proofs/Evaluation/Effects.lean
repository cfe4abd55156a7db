import TinyLisp.Proofs.Evaluation.Outcome

/-!
What evaluation can do to the world.

The only effect of an evaluation is a sequence of writes to one root. What is written, and what the
evaluation gives or fails with, stays in any class of values that is closed under the ways in which
evaluation comes by a value: it takes elements out of lists and bodies, it computes numbers, and it
makes functions out of lambda forms. The names it writes are those that stand in the definitions of
the class. So an invariant of evaluation is a class of values, and nothing has to be proved of the
evaluator again.
-/

set_option autoImplicit false

namespace TinyLisp

namespace Malformation

/-- The values that a malformation reports. -/
def carried : Malformation → List Value
  | .nonSymbolName found => [found]
  | .parametersNotList found => [found]
  | .nonSymbolParameter found => [found]
  | _ => []

/-- The values that a malformation reports, and the symbols that it names. -/
def mentioned : Malformation → List Value
  | .duplicateParameter name => [.symbol name]
  | malformation => malformation.carried

end Malformation

namespace EvalError

/-- The values that an error reports. -/
def carried : EvalError → List Value
  | .uncallableHead found => [found]
  | .uncallableValue found => [found]
  | .typeMismatch _ found => [found]
  | .malformedForm _ malformation => malformation.carried
  | _ => []

/-- The values that an error reports, and the symbols that it names. -/
def mentioned : EvalError → List Value
  | .unboundSymbol name => [.symbol name]
  | .typeMismatch operator found => [.symbol operator, found]
  | .malformedForm form malformation => .symbol form :: malformation.mentioned
  | error => error.carried

theorem mentioned_of_carried {error : EvalError} {value : Value} (carried : value ∈ error.carried) :
    value ∈ error.mentioned := by
  cases error with
  | unboundSymbol name => contradiction
  | typeMismatch operator found => exact List.mem_cons_of_mem _ carried
  | malformedForm form malformation =>
      apply List.mem_cons_of_mem
      cases malformation with
      | duplicateParameter name => contradiction
      | _ => exact carried
  | _ => exact carried

end EvalError

/-- A class of values, and of names that definitions in it may define, which evaluation does not
leave. -/
structure ValueClass where
  Member : Value → Prop
  Definable : String → Prop
  nil : Member .nil
  number : ∀ number, Member (.number number)
  element : ∀ {elements element}, Member (.list elements) → element ∈ elements → Member element
  body : ∀ {params body element}, Member (.function params body) → element ∈ body → Member element
  function : ∀ {params names first rest},
    Member (.list (.symbol "lambda" :: .list params :: first :: rest)) →
      Evaluation.parameterNames [] params = .ok names → Member (.function names (first :: rest))
  definable : ∀ {name expression},
    Member (.list [.symbol "defvar", .symbol name, expression]) → Definable name

namespace ValueClass

variable (family : ValueClass)

def Binds (bindings : Bindings) : Prop :=
  ∀ name value, bindings.find? name = some value → family.Member value

/-- The second world is the first one after some writes to a root. -/
inductive Writes (root : Nat) : World → World → Prop
  | nothing (world : World) : Writes root world world
  | write {before between : World} (earlier : Writes root before between) {name : String}
      {value : Value} (definable : family.Definable name) (member : family.Member value) :
      Writes root before (between.write root name value)

variable {family}

namespace Writes

variable {root : Nat} {before between after : World}

theorem trans (first : family.Writes root before between)
    (second : family.Writes root between after) : family.Writes root before after := by
  induction second with
  | nothing => exact first
  | write _ definable member ih => exact .write ih definable member

theorem root_unchanged (writes : family.Writes root before after) {other : Nat}
    (different : other ≠ root) : after.root other = before.root other := by
  induction writes with
  | nothing => rfl
  | write _ _ _ ih => rw [World.root_write, if_neg different, ih]

theorem still_bound (writes : family.Writes root before after) {name : String}
    (bound : (before.root root).find? name ≠ none) : (after.root root).find? name ≠ none := by
  induction writes with
  | nothing => exact bound
  | write _ _ _ ih =>
      rw [World.root_write, if_pos rfl, Bindings.find?_insert]
      split
      · exact Option.some_ne_none _
      · exact ih

/-- A binding of the written root is as it was, or it has been written. -/
theorem find_cases (writes : family.Writes root before after) (name : String) :
    (after.root root).find? name = (before.root root).find? name ∨
      family.Definable name ∧
        ∃ value, family.Member value ∧ (after.root root).find? name = some value := by
  induction writes with
  | nothing => exact .inl rfl
  | @write between _ written value definable member ih =>
      rw [World.root_write, if_pos rfl, Bindings.find?_insert]
      by_cases same : name = written
      · rw [if_pos same, same]
        exact .inr ⟨definable, value, member, rfl⟩
      · rw [if_neg same]
        exact ih

theorem binds (writes : family.Writes root before after) {origin : Nat}
    (bound : family.Binds (before.root origin)) : family.Binds (after.root origin) := by
  by_cases same : origin = root
  · subst same
    intro name value found
    rcases writes.find_cases name with unchanged | ⟨-, written, member, held⟩
    · exact bound name value (unchanged ▸ found)
    · rw [held] at found
      exact Option.some.inj found ▸ member
  · rwa [writes.root_unchanged same]

end Writes

/-- What a computation gives or fails with. -/
def Admits {Result : Type} (Gives : Result → Prop) : Except EvalError Result → Prop
  | .ok result => Gives result
  | .error error => ∀ value ∈ error.mentioned, family.Member value

variable (family) in
/-- A computation that stays in the class where one root binds members of it: it writes only to
another root, and what it gives is as stated. -/
def Keeps (global origin : Nat) {Result : Type} (computation : Evaluation Result)
    (Gives : Result → Prop) : Prop :=
  ∀ world, family.Binds (world.root origin) →
    family.Writes global world (computation.outcome world).2 ∧
      family.Admits Gives (computation.outcome world).1

section Computations

variable {global origin : Nat} {Result Next : Type}

theorem keeps_pure {Gives : Result → Prop} {result : Result} (given : Gives result) :
    family.Keeps global origin (pure result) Gives := by
  intro world _
  rw [Evaluation.outcome_pure]
  exact ⟨.nothing world, given⟩

theorem keeps_throw {Gives : Result → Prop} {error : EvalError}
    (mentioned : ∀ value ∈ error.mentioned, family.Member value) :
    family.Keeps global origin (throw error) Gives := by
  intro world _
  rw [Evaluation.outcome_throw]
  exact ⟨.nothing world, mentioned⟩

theorem keeps_bind {Gives : Result → Prop} {NextGives : Next → Prop}
    {computation : Evaluation Result} {next : Result → Evaluation Next}
    (first : family.Keeps global origin computation Gives)
    (second : ∀ result, Gives result → family.Keeps global origin (next result) NextGives) :
    family.Keeps global origin (computation >>= next) NextGives := by
  intro world bound
  obtain ⟨writes, admitted⟩ := first world bound
  rw [Evaluation.outcome_bind]
  rcases computed : computation.outcome world with ⟨error | result, between⟩ <;>
    rw [computed] at writes admitted
  · exact ⟨writes, admitted⟩
  -- The two roots may be one, and then the second part looks up what the first one wrote.
  · obtain ⟨laterWrites, laterAdmitted⟩ := second result admitted between (writes.binds bound)
    exact ⟨writes.trans laterWrites, laterAdmitted⟩

theorem keeps_map {Gives : Result → Prop} {NextGives : Next → Prop}
    {computation : Evaluation Result} {next : Result → Next}
    (first : family.Keeps global origin computation Gives)
    (second : ∀ result, Gives result → NextGives (next result)) :
    family.Keeps global origin (do return next (← computation)) NextGives :=
  keeps_bind first fun result given => keeps_pure (second result given)

theorem keeps_mapM {Item : Type} {Gives : Result → Prop} {step : Item → Evaluation Result}
    {items : List Item} (each : ∀ item ∈ items, family.Keeps global origin (step item) Gives) :
    family.Keeps global origin (items.mapM step)
      fun results => ∀ result ∈ results, Gives result := by
  induction items with
  | nil => exact keeps_pure (List.forall_mem_nil _)
  | cons item items ih =>
      obtain ⟨itemKeeps, restKeep⟩ := List.forall_mem_cons.mp each
      rw [List.mapM_cons]
      refine keeps_bind itemKeeps fun result given => ?_
      exact keeps_map (ih restKeep) fun results givens => List.forall_mem_cons.mpr ⟨given, givens⟩

theorem keeps_foldlM {Item : Type} {Gives : Result → Prop}
    {step : Result → Item → Evaluation Result} {items : List Item}
    (each : ∀ item ∈ items, ∀ result, Gives result →
      family.Keeps global origin (step result item) Gives)
    {initial : Result} (given : Gives initial) :
    family.Keeps global origin (items.foldlM step initial) Gives := by
  induction items generalizing initial with
  | nil => exact keeps_pure given
  | cons item items ih =>
      obtain ⟨itemKeeps, restKeep⟩ := List.forall_mem_cons.mp each
      rw [List.foldlM_cons]
      exact keeps_bind (itemKeeps initial given) fun result given => ih restKeep given

theorem keeps_of_except {Gives : Result → Prop} {result : Except EvalError Result}
    (admitted : family.Admits Gives result) :
    family.Keeps global origin (ofExcept result) Gives := by
  intro world _
  rw [Evaluation.outcome_of_except]
  exact ⟨.nothing world, admitted⟩

end Computations

/-- What a scope's frames bind. -/
def BindsFrames (family : ValueClass) (scope : Scope) : Prop :=
  ∀ frame ∈ scope.frames, family.Binds frame

theorem binds_insert_all {bindings : Bindings} {pairs : List (String × Value)}
    (bound : family.Binds bindings) (members : ∀ pair ∈ pairs, family.Member pair.2) :
    family.Binds (bindings.insertAll pairs) := by
  induction pairs generalizing bindings with
  | nil => exact bound
  | cons pair pairs ih =>
      obtain ⟨pairMember, restMembers⟩ := List.forall_mem_cons.mp members
      apply ih _ restMembers
      intro name value found
      rw [Bindings.find?_insert] at found
      split at found
      · exact Option.some.inj found ▸ pairMember
      · exact bound name value found

theorem binds_frames_push {scope : Scope} (params : List String) {values : List Value}
    (frames : family.BindsFrames scope) (members : ∀ value ∈ values, family.Member value) :
    family.BindsFrames (scope.push (.ofList (params.zip values))) := by
  have fresh : family.Binds (.ofList (params.zip values)) := by
    apply binds_insert_all
    · intro name value found
      contradiction
    · intro pair member
      exact members pair.2 (List.of_mem_zip member).2
  exact List.forall_mem_cons.mpr ⟨fresh, frames⟩

theorem find_member {scope : Scope} {world : World} {name : String} {value : Value}
    (frames : family.BindsFrames scope) (bound : family.Binds (world.root scope.root))
    (found : scope.find? world name = some value) : family.Member value := by
  unfold Scope.find? at found
  split at found
  case h_1 inner innermost =>
    obtain ⟨frame, member, held⟩ := List.exists_of_findSome?_eq_some innermost
    exact frames frame member name value (found ▸ held)
  case h_2 => exact bound name value found

/-- An evaluator that stays in the class wherever it is used from scopes over one root. -/
def KeepsEvaluator (family : ValueClass) (global origin : Nat) (evaluator : Evaluator) : Prop :=
  ∀ scope expression, scope.root = origin → family.BindsFrames scope → family.Member expression →
    family.Keeps global origin (evaluator scope expression) family.Member

section Forms

variable {global origin : Nat} {evaluate : Value → Evaluation Value} {inner deeper : Evaluator}
  {scope : Scope}

theorem keeps_look_up (frames : family.BindsFrames scope) {name : String}
    (member : family.Member (.symbol name)) :
    family.Keeps global scope.root (Evaluation.lookUp scope name) family.Member := by
  intro world bound
  rw [Evaluation.outcome_look_up]
  refine ⟨.nothing world, ?_⟩
  rw [Scope.get]
  split
  case h_1 value found => exact find_member frames bound found
  case h_2 => exact List.forall_mem_singleton.mpr member

theorem keeps_define {globalScope : Scope} {name : String} {value : Value}
    (definable : family.Definable name) (member : family.Member value) :
    family.Keeps globalScope.root origin (Evaluation.define globalScope name value)
      family.Member := by
  intro world _
  rw [Evaluation.outcome_define]
  exact ⟨.write (.nothing world) definable member, member⟩

theorem keeps_last_of {expressions : List Value}
    (each : ∀ expression ∈ expressions,
      family.Keeps global origin (evaluate expression) family.Member) :
    family.Keeps global origin (Evaluation.lastOf evaluate expressions) family.Member :=
  keeps_foldlM (fun expression member _ _ => each expression member) family.nil

theorem keeps_number (operator : Operator) {argument : Value}
    (named : family.Member (.symbol operator.name))
    (evaluated : family.Keeps global origin (evaluate argument) family.Member) :
    family.Keeps global origin (Evaluation.number operator evaluate argument) fun _ => True := by
  refine keeps_bind evaluated fun value member => ?_
  split
  · exact keeps_pure trivial
  · exact keeps_throw (List.forall_mem_cons.mpr ⟨named, List.forall_mem_singleton.mpr member⟩)

theorem keeps_arithmetic (operator : Operator) {arguments : List Value}
    (named : family.Member (.symbol operator.name))
    (each : ∀ argument ∈ arguments,
      family.Keeps global origin (evaluate argument) family.Member) :
    family.Keeps global origin (Evaluation.arithmetic operator evaluate arguments)
      family.Member :=
  keeps_map (keeps_mapM fun argument member => keeps_number operator named (each argument member))
    fun numbers _ => family.number (operator.fold numbers)

theorem keeps_passed (passing : Passing) {arguments : List Value}
    (members : ∀ argument ∈ arguments, family.Member argument)
    (each : ∀ argument ∈ arguments,
      family.Keeps global origin (evaluate argument) family.Member) :
    family.Keeps global origin (Evaluation.passed passing evaluate arguments)
      fun values => ∀ value ∈ values, family.Member value := by
  cases passing with
  | unevaluated => exact keeps_pure members
  | evaluated => exact keeps_mapM each

theorem keeps_call (passing : Passing) (evaluates : family.KeepsEvaluator global origin inner)
    (root : scope.root = origin) (frames : family.BindsFrames scope) {callee : Value}
    (calleeMember : family.Member callee) {arguments : List Value}
    (members : ∀ argument ∈ arguments, family.Member argument) :
    family.Keeps global origin (Evaluation.call passing inner scope callee arguments)
      family.Member := by
  unfold Evaluation.call
  split
  case h_1 params body =>
    split
    · refine keeps_bind (keeps_passed passing members fun argument member =>
        evaluates scope argument root frames (members argument member)) fun values given => ?_
      apply keeps_last_of
      intro expression member
      exact evaluates _ expression root (binds_frames_push params frames given)
        (family.body calleeMember member)
    · exact keeps_throw (List.forall_mem_nil _)
  case h_2 => exact keeps_throw (List.forall_mem_singleton.mpr calleeMember)

/-- A list of parameters that is no list of distinct names holds what is reported. -/
theorem mentioned_of_parameter_names {earlier : List String} {params : List Value}
    {malformation : Malformation}
    (refused : Evaluation.parameterNames earlier params = .error malformation) :
    ∀ value ∈ malformation.mentioned, value ∈ params := by
  fun_induction Evaluation.parameterNames earlier params with
  | case1 => contradiction
  | case2 earlier name rest duplicate =>
      cases refused
      exact List.forall_mem_singleton.mpr List.mem_cons_self
  | case3 earlier name rest fresh ih =>
      intro value mentioned
      exact List.mem_cons_of_mem _ (ih refused value mentioned)
  | case4 earlier found rest notSymbol =>
      cases refused
      exact List.forall_mem_singleton.mpr List.mem_cons_self

/-- The function that a lambda form makes, or the value that it reports, is in the class. -/
theorem admits_make_function {arguments : List Value}
    (member : family.Member (.list (.symbol "lambda" :: arguments))) :
    match Evaluation.makeFunction arguments with
    | .ok function => family.Member function
    | .error malformation => ∀ value ∈ malformation.mentioned, family.Member value := by
  fun_cases Evaluation.makeFunction arguments with
  | case1 => exact List.forall_mem_nil _
  | case2 => exact List.forall_mem_nil _
  | case3 params first rest =>
      cases named : Evaluation.parameterNames [] params with
      | ok names => exact family.function member named
      | error malformation =>
          intro value mentioned
          have listed : family.Member (.list params) := family.element member (by simp)
          exact family.element listed (mentioned_of_parameter_names named value mentioned)
  | case4 found body rest notList =>
      exact List.forall_mem_singleton.mpr (family.element member (by simp))

theorem argument_members {head : Value} {arguments : List Value}
    (member : family.Member (.list (head :: arguments))) :
    ∀ argument ∈ arguments, family.Member argument := by
  intro argument listed
  exact family.element member (List.mem_cons_of_mem _ listed)

theorem keeps_special (passing : Passing) {globalScope : Scope}
    (inside : family.KeepsEvaluator globalScope.root origin inner)
    (below : family.KeepsEvaluator globalScope.root origin deeper)
    (root : scope.root = origin) (frames : family.BindsFrames scope) (form : SpecialForm)
    {arguments : List Value}
    (member : family.Member (.list (.symbol form.name :: arguments))) :
    family.Keeps globalScope.root origin
      (Evaluation.special passing globalScope inner deeper scope form arguments)
      family.Member := by
  have members := argument_members member
  have named := family.element member List.mem_cons_self
  have malformed : ∀ malformation, (∀ value ∈ Malformation.mentioned malformation,
      family.Member value) →
        family.Keeps globalScope.root origin (throw (.malformedForm form.name malformation))
          family.Member := by
    intro malformation mentioned
    exact keeps_throw (List.forall_mem_cons.mpr ⟨named, mentioned⟩)
  have evaluated : ∀ expression, family.Member expression →
      family.Keeps globalScope.root origin (inner scope expression) family.Member := by
    intro expression expressionMember
    exact inside scope expression root frames expressionMember
  fun_cases Evaluation.special passing globalScope inner deeper scope form arguments with
  | case1 expression =>
      exact keeps_bind (evaluated expression (members expression List.mem_cons_self)) evaluated
  | case2 => exact malformed _ (List.forall_mem_nil _)
  | case3 name expression =>
      have expressionMember := members expression (List.mem_cons_of_mem _ List.mem_cons_self)
      refine keeps_bind (evaluated expression expressionMember) fun value valueMember => ?_
      exact keeps_define (family.definable member) valueMember
  | case4 found =>
      exact malformed _ (List.forall_mem_singleton.mpr (members found List.mem_cons_self))
  | case5 => exact malformed _ (List.forall_mem_nil _)
  | case6 _ function made =>
      have admitted := admits_make_function member
      rw [made] at admitted
      exact keeps_pure admitted
  | case7 _ malformation refused =>
      have admitted := admits_make_function member
      rw [refused] at admitted
      exact malformed malformation admitted
  | case8 => exact malformed _ (List.forall_mem_nil _)
  | case9 callee rest =>
      obtain ⟨calleeMember, restMembers⟩ := List.forall_mem_cons.mp members
      refine keeps_bind (evaluated callee calleeMember) fun value valueMember => ?_
      exact keeps_call passing below root frames valueMember restMembers

theorem admits_validate {form : String} (named : family.Member (.symbol form)) (given : Nat)
    (arity : Arity) : family.Admits (fun _ => True) (arity.validate form given) := by
  fun_cases Arity.validate form given arity with
  | case1 => trivial
  | case2 => exact List.forall_mem_singleton.mpr named
  | case3 => trivial
  | case4 => exact List.forall_mem_singleton.mpr named
  | case5 => trivial

theorem keeps_form (passing : Passing) {globalScope : Scope}
    (inside : family.KeepsEvaluator globalScope.root origin inner)
    (below : family.KeepsEvaluator globalScope.root origin deeper)
    (root : scope.root = origin) (frames : family.BindsFrames scope) {head : String}
    {arguments : List Value} (member : family.Member (.list (.symbol head :: arguments))) :
    family.Keeps globalScope.root origin
      (Evaluation.form passing globalScope inner deeper scope head arguments) family.Member := by
  have members := argument_members member
  have headMember := family.element member List.mem_cons_self
  unfold Evaluation.form
  split
  case h_1 builtin found =>
    rw [Builtin.name_of_find found] at member headMember
    refine keeps_bind (keeps_of_except (admits_validate headMember _ _)) fun _ _ => ?_
    cases builtin with
    | special form => exact keeps_special passing inside below root frames form member
    | arithmetic operator =>
        exact keeps_arithmetic operator headMember fun argument listed =>
          inside scope argument root frames (members argument listed)
  case h_2 =>
    refine keeps_bind (inside scope _ root frames headMember) fun callee calleeMember => ?_
    exact keeps_call passing inside root frames calleeMember members

theorem keeps_level (passing : Passing) {globalScope : Scope}
    (inside : family.KeepsEvaluator globalScope.root origin inner)
    (below : family.KeepsEvaluator globalScope.root origin deeper) :
    family.KeepsEvaluator globalScope.root origin
      (Evaluation.level passing globalScope inner deeper) := by
  intro scope expression root frames member
  unfold Evaluation.level
  split
  · subst root
    exact keeps_look_up frames member
  · exact keeps_pure member
  · exact keeps_pure member
  · exact keeps_pure member
  · exact keeps_pure family.nil
  · exact keeps_form passing inside below root frames member
  · exact keeps_throw (List.forall_mem_singleton.mpr (family.element member List.mem_cons_self))

end Forms

/-- Evaluation stays in the class, at every depth and from every scope over the root that binds
members of it. -/
theorem keeps_evaluate (config : Config) (global : Scope) (origin depth : Nat) :
    family.KeepsEvaluator global.root origin (evaluate config global depth) := by
  induction depth using depth_induction config.maxDepth with
  | reached depth reached =>
      intro scope expression root frames member
      rw [evaluate_eq_throw config global scope expression reached]
      exact keeps_throw (List.forall_mem_nil _)
  | below depth below next second =>
      intro scope expression root frames member
      rw [evaluate_eq_level config global scope expression below]
      exact keeps_level config.passing next second scope expression root frames member

end ValueClass

end TinyLisp
