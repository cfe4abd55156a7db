import TinyLisp.Proofs.Session.Run
import TinyLisp.Proofs.Value.Reading

/-!
The data model of a session.

Reading gives data only, and evaluation adds two kinds of values to them: numbers, which are data,
and functions made from lambda forms, which are data before they become functions. So a function's
parameters and body are data as well, and functions never end up inside of other values.
-/

set_option autoImplicit false

namespace TinyLisp

/-- The parts of a function that a lambda form within the nesting limit can make. -/
structure WellMadeFunction (params : List String) (body : List Value) : Prop where
  distinct : params.Nodup
  readable : ∀ param ∈ params, ReadableName param
  nonempty : body ≠ []
  data : ∀ expression ∈ body, expression.Datum
  shallow : ∀ depth node,
    (Value.list (.symbol "lambda" :: .list (params.map .symbol) :: body)).HasNode depth node →
      depth < maxNesting

namespace Value

/-- Data, among them all numbers, and functions that have been made by lambda forms. -/
inductive WellMade : Value → Prop
  | datum {value : Value} (datum : value.Datum) : WellMade value
  | function {params : List String} {body : List Value} (made : WellMadeFunction params body) :
      WellMade (.function params body)

theorem datum_number (number : Float) : (Value.number number).Datum :=
  datum_at_number (by decide) number

theorem datum_nil : Value.nil.Datum :=
  datum_at_list_iff.mpr ⟨by decide, List.forall_mem_nil _⟩

theorem datum_of_element {elements : List Value} {element : Value}
    (datum : (Value.list elements).Datum) (member : element ∈ elements) : element.Datum :=
  datum_at_mono ((datum_at_list_iff.mp datum).2 element member) (Nat.zero_le 1)

theorem readable_of_datum {name : String} (datum : (Value.symbol name).Datum) :
    ReadableName name :=
  (datum_at_node datum).2

theorem WellMade.datum_of_list {elements : List Value} (made : (Value.list elements).WellMade) :
    (Value.list elements).Datum := by
  cases made with
  | datum datum => exact datum

theorem WellMade.parts_of_function {params : List String} {body : List Value}
    (made : (Value.function params body).WellMade) : WellMadeFunction params body := by
  cases made with
  | datum datum => exact absurd datum not_datum_at_function
  | function made => exact made

/-- No function is a part of another value. -/
theorem WellMade.no_function_inside {value : Value} (made : value.WellMade) (depth : Nat)
    (params : List String) (body : List Value) :
    ¬value.HasNode (depth + 1) (.function params body) := by
  intro inside
  cases made with
  | datum datum => exact (datum _ _ inside).2
  | function made =>
      obtain ⟨element, member, inside⟩ := has_node_function_succ_iff.mp inside
      exact (made.data element member _ _ inside).2

end Value

namespace Evaluation

/-- The names that a parameter list is accepted with are those it spells, each once. -/
theorem spelled_by_parameter_names {earlier names : List String} {params : List Value}
    (accepted : parameterNames earlier params = .ok names) (distinct : earlier.Nodup) :
    names.Nodup ∧ earlier.map .symbol ++ params = names.map .symbol := by
  fun_induction parameterNames earlier params with
  | case1 earlier =>
      cases accepted
      exact ⟨distinct, List.append_nil _⟩
  | case2 => contradiction
  | case3 earlier name rest fresh ih =>
      have notEarlier : name ∉ earlier := by
        intro member
        exact fresh (List.contains_iff_mem.mpr member)
      have extended : (earlier ++ [name]).Nodup :=
        distinct.append (List.nodup_singleton name) (List.disjoint_singleton.mpr notEarlier)
      obtain ⟨namesDistinct, spelled⟩ := ih accepted extended
      refine ⟨namesDistinct, ?_⟩
      rw [← spelled, List.map_append, List.append_assoc]
      rfl
  | case4 => contradiction

end Evaluation

theorem made_of_lambda_form {params : List Value} {names : List String} {first : Value}
    {rest : List Value}
    (datum : (Value.list (.symbol "lambda" :: .list params :: first :: rest)).Datum)
    (accepted : Evaluation.parameterNames [] params = .ok names) :
    WellMadeFunction names (first :: rest) := by
  obtain ⟨distinct, spelled⟩ := Evaluation.spelled_by_parameter_names accepted List.nodup_nil
  rw [List.map_nil, List.nil_append] at spelled
  subst spelled
  have parameterList : (Value.list (names.map .symbol)).Datum :=
    Value.datum_of_element datum (List.mem_cons_of_mem _ List.mem_cons_self)
  refine ⟨distinct, ?_, List.cons_ne_nil first rest, ?_, ?_⟩
  · intro param member
    have spelledOut := List.mem_map_of_mem (f := Value.symbol) member
    exact Value.readable_of_datum (Value.datum_of_element parameterList spelledOut)
  · intro expression member
    exact Value.datum_of_element datum (List.mem_cons_of_mem _ (List.mem_cons_of_mem _ member))
  · intro depth node inside
    have bounded := (datum depth node inside).1
    omega

/-- Well-made values, in which definitions define readable names. -/
def ValueClass.wellMade : ValueClass where
  Member := Value.WellMade
  Definable := ReadableName
  nil := .datum Value.datum_nil
  number := fun number => .datum (Value.datum_number number)
  element := fun made member => .datum (Value.datum_of_element made.datum_of_list member)
  body := fun made member => .datum (made.parts_of_function.data _ member)
  function := fun made accepted => .function (made_of_lambda_form made.datum_of_list accepted)
  definable := fun made => Value.readable_of_datum
    (Value.datum_of_element made.datum_of_list (List.mem_cons_of_mem _ List.mem_cons_self))

theorem ValueClass.well_made_members {source : String} (expressions : List Value)
    (read : Value.readAll (Token.tokenize source) = .ok expressions) :
    ∀ expression ∈ expressions, ValueClass.wellMade.Member expression := by
  intro expression member
  exact .datum (Value.datum_of_read_all read expression member)

/-- In every session on a fresh root, each value that is returned, reported or bound is well made
and has no function inside, and each name that is bound is readable. -/
theorem session_stays_in_data_model (existing : World) (lines : List (Config × String)) :
    let ended := runSession existing.addRoot.2 lines existing.addRoot.1
    (∀ result ∈ ended.1, ∀ value ∈ shown result, value.WellMade ∧
      ∀ depth params body, ¬value.HasNode (depth + 1) (.function params body)) ∧
    (∀ name value, (ended.2.root existing.addRoot.2.root).find? name = some value →
      ReadableName name ∧ value.WellMade ∧
        ∀ depth params body, ¬value.HasNode (depth + 1) (.function params body)) := by
  obtain ⟨writes, kept⟩ := ValueClass.keeps_fresh_session existing
    fun line (_ : line ∈ lines) => ValueClass.well_made_members
  constructor
  · intro result listed value reported
    have made : value.WellMade := kept result listed value reported
    exact ⟨made, made.no_function_inside⟩
  · intro name value found
    obtain ⟨readable, made⟩ := writes.written_of_fresh (World.root_add_root existing) found
    exact ⟨readable, made, made.no_function_inside⟩

theorem defined_function_is_well_made :
    ∃ value,
      ((runSession World.empty.addRoot.2
        [(⟨256, .unevaluated⟩, "(defvar f (lambda (x) x))"), (⟨256, .evaluated⟩, "(+ f)")]
        World.empty.addRoot.1).2.root 0).find? "f" = some value ∧ value.WellMade := by
  have defined : (((runSession World.empty.addRoot.2
      [(⟨256, .unevaluated⟩, "(defvar f (lambda (x) x))"), (⟨256, .evaluated⟩, "(+ f)")]
      World.empty.addRoot.1).2.root 0).find? "f").isSome = true := by
    decide +kernel
  obtain ⟨value, found⟩ := Option.isSome_iff_exists.mp defined
  exact ⟨value, found, ((session_stays_in_data_model World.empty _).2 "f" value found).2.1⟩

end TinyLisp
