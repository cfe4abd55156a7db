import TinyLisp.Proofs.Session.DataModel
import TinyLisp.Proofs.Value.RoundTrip

/-!
Written functions make themselves again.

A function is written as the lambda form that makes it. What a session makes is made from such a
form within the nesting limit, with distinct and readable parameters and with a body, so the
written form is read as a datum, and its evaluation meets none of the objections to a lambda form.
-/

set_option autoImplicit false

namespace TinyLisp

namespace Value

/-- The form that makes a function of these parts. -/
def lambdaForm (params : List String) (body : List Value) : Value :=
  .list (.symbol "lambda" :: .list (params.map .symbol) :: body)

theorem spaced_chars_symbol (name : String) (rest : List Value) :
    spacedChars (.symbol name :: rest) = ' ' :: (name.toList ++ spacedChars rest) :=
  rfl

theorem intercalate_names (first : String) (rest : List String) :
    [' '].intercalate ((first :: rest).map String.toList) =
      first.toList ++ spacedChars (rest.map .symbol) := by
  induction rest generalizing first with
  | nil =>
      rw [List.map_singleton, List.intercalate_singleton]
      exact (List.append_nil _).symm
  | cons second rest ih =>
      rw [List.map_cons, List.map_cons, List.intercalate_cons_cons, ← List.map_cons, ih second,
        List.map_cons, spaced_chars_symbol]
      simp

theorem chars_parameter_list (params : List String) :
    (Value.list (params.map .symbol)).chars =
      '(' :: ([' '].intercalate (params.map String.toList) ++ [')']) := by
  cases params with
  | nil => rfl
  | cons first rest =>
      rw [intercalate_names, List.append_assoc]
      rfl

theorem chars_function (params : List String) (body : List Value) :
    (Value.function params body).chars = (lambdaForm params body).chars := by
  have form : (lambdaForm params body).chars =
      '(' :: ("lambda".toList ++
        (' ' :: ((Value.list (params.map .symbol)).chars ++ spacedChars body) ++ [')'])) :=
    rfl
  have function : (Value.function params body).chars =
      "(lambda (".toList ++ ([' '].intercalate (params.map String.toList) ++
        (')' :: (spacedChars body ++ [')']))) :=
    rfl
  rw [form, function, chars_parameter_list]
  simp

end Value

theorem readable_lambda : ReadableName "lambda" where
  nonempty := by decide
  plain := by simp
  notNumeral := by decide +kernel
  notNumeric := by decide +kernel

namespace WellMadeFunction

variable {params : List String} {body : List Value}

theorem datum_form (made : WellMadeFunction params body) :
    (Value.lambdaForm params body).Datum := by
  intro below node inside
  have bounded := made.shallow below node inside
  refine ⟨by omega, ?_⟩
  cases inside with
  | root => trivial
  | element member inside =>
      rcases List.mem_cons.mp member with rfl | member
      · cases inside
        exact readable_lambda
      rcases List.mem_cons.mp member with rfl | member
      · cases inside with
        | root => trivial
        | element member inside =>
            obtain ⟨param, listed, rfl⟩ := List.mem_map.mp member
            cases inside
            exact made.readable param listed
      · exact (made.data _ member _ _ inside).2

theorem read_all_render (made : WellMadeFunction params body) :
    Value.readAll (Token.tokenize ((Value.function params body).render ++ "\n")) =
      .ok [.lambdaForm params body] := by
  have written : (Value.function params body).render = (Value.lambdaForm params body).render :=
    congrArg String.ofList (Value.chars_function params body)
  rw [written]
  exact Value.read_all_render made.datum_form

end WellMadeFunction

namespace Evaluation

/-- Distinct names are accepted as a parameter list. -/
theorem parameter_names_of_distinct (earlier params : List String)
    (distinct : (earlier ++ params).Nodup) :
    parameterNames earlier (params.map .symbol) = .ok (earlier ++ params) := by
  induction params generalizing earlier with
  | nil => rw [List.append_nil, List.map_nil, parameterNames]
  | cons param params ih =>
      have fresh : ¬earlier.contains param = true := by
        intro repeated
        have disjoint := (List.nodup_append.mp distinct).2.2
        exact disjoint param (List.contains_iff_mem.mp repeated) param List.mem_cons_self rfl
      have next : (earlier ++ [param] ++ params).Nodup := by
        rwa [List.append_assoc, List.singleton_append]
      rw [List.map_cons, parameterNames, if_neg fresh, ih (earlier ++ [param]) next,
        List.append_assoc, List.singleton_append]

theorem make_function_of_form {params : List String} {body : List Value}
    (distinct : params.Nodup) (nonempty : body ≠ []) :
    makeFunction (.list (params.map .symbol) :: body) = .ok (.function params body) := by
  obtain ⟨first, rest, rfl⟩ := List.exists_cons_of_ne_nil nonempty
  have names := parameter_names_of_distinct [] params distinct
  rw [makeFunction, names]
  rfl

end Evaluation

theorem evaluate_lambda_form (config : Config) (global : Scope) {depth : Nat}
    (below : depth < config.maxDepth) (scope : Scope) {params : List String} {body : List Value}
    (distinct : params.Nodup) (nonempty : body ≠ []) :
    evaluate config global depth scope (.lambdaForm params body) =
      pure (.function params body) := by
  have lambda : Builtin.find? "lambda" = some (.special .lambda) := by decide
  have enough : 2 ≤ (Value.list (params.map .symbol) :: body).length := by
    have := List.length_pos_iff.mpr nonempty
    simp only [List.length_cons]
    omega
  have accepted : Arity.validate (Builtin.special .lambda).name
      (Value.list (params.map .symbol) :: body).length (Builtin.special .lambda).arity = .ok () :=
    if_pos enough
  have made := Evaluation.make_function_of_form distinct nonempty
  rw [evaluate_eq_level config global scope _ below]
  simp only [Value.lambdaForm, Evaluation.level, Evaluation.form, lambda, accepted,
    Evaluation.special, made]
  rfl

theorem run_written_function {params : List String} {body : List Value}
    (made : WellMadeFunction params body) (config : Config) (positive : 0 < config.maxDepth)
    (scope : Scope) (world : World) :
    run config scope ((Value.function params body).render ++ "\n") world =
      (.ok (.function params body), world) := by
  have evaluated := evaluate_lambda_form config scope positive scope made.distinct made.nonempty
  rw [run_of_read_all config scope made.read_all_render, Evaluation.lastOf, List.foldlM_cons,
    evaluated]
  rfl

/-- Every function that a session on a fresh root returns or leaves bound is the result of running
its written form, under any limit that allows an evaluation at all. The run finds the very same
function, its NaNs included, in whatever scope it is started, and it leaves the world as it is. -/
theorem written_functions_run_as_themselves (existing : World) (lines : List (Config × String))
    (params : List String) (body : List Value)
    (produced :
      let ended := runSession existing.addRoot.2 lines existing.addRoot.1
      .ok (.function params body) ∈ ended.1 ∨
        ∃ name, (ended.2.root existing.addRoot.2.root).find? name = some (.function params body))
    (config : Config) (positive : 0 < config.maxDepth) (scope : Scope) (world : World) :
    run config scope ((Value.function params body).render ++ "\n") world =
      (.ok (.function params body), world) := by
  obtain ⟨writes, kept⟩ := ValueClass.keeps_fresh_session existing
    fun line (_ : line ∈ lines) => ValueClass.well_made_members
  have made : (Value.function params body).WellMade := by
    rcases produced with returned | ⟨name, bound⟩
    · exact kept _ returned _ (List.mem_singleton_self _)
    · exact (writes.written_of_fresh (World.root_add_root existing) bound).2
  exact run_written_function made.parts_of_function config positive scope world

theorem bound_function_runs_as_itself :
    let body := Value.list
      [.symbol "+", .symbol "x", .text "\\", .number (Float.ofBits 0x7FF8000000000000)]
    let ended := runSession World.empty.addRoot.2
      [(⟨256, .unevaluated⟩, "(defvar f (lambda (x) (+ x \"\\\\\" nan)))")] World.empty.addRoot.1
    (ended.2.root 0).find? "f" = some (.function ["x"] [body]) ∧
      run ⟨1, .evaluated⟩ ⟨[], 7⟩ ((Value.function ["x"] [body]).render ++ "\n") .empty =
        (.ok (.function ["x"] [body]), .empty) := by
  intro body ended
  have read : Value.readAll (Token.tokenize "(defvar f (lambda (x) (+ x \"\\\\\" nan)))") =
      .ok [.list [.symbol "defvar", .symbol "f",
        .list [.symbol "lambda", .list [.symbol "x"], body]]] := by
    have tokens : Token.tokenize "(defvar f (lambda (x) (+ x \"\\\\\" nan)))" =
        [.openParen, .atom "defvar", .atom "f", .openParen, .atom "lambda", .openParen, .atom "x",
          .closeParen, .openParen, .atom "+", .atom "x", .atom "\"\\\\\"", .atom "nan", .closeParen,
          .closeParen, .closeParen] := by
      cbv
    have head : readAtom "defvar" = .ok (.symbol "defvar") := rfl
    have name : readAtom "f" = .ok (.symbol "f") := rfl
    have lambda : readAtom "lambda" = .ok (.symbol "lambda") := rfl
    have param : readAtom "x" = .ok (.symbol "x") := rfl
    have operator : readAtom "+" = .ok (.symbol "+") := rfl
    have text : readAtom "\"\\\\\"" = .ok (.text "\\") := rfl
    have number : readAtom "nan" = .ok (.number (Float.ofBits 0x7FF8000000000000)) := rfl
    rw [tokens]
    simp [Value.readAll, Value.readOnward, Value.readAt, Value.readElements, maxNesting, head, name,
      lambda, param, operator, text, number, body, Except.map]
  have bound : (ended.2.root 0).find? "f" = some (.function ["x"] [body]) := by
    simp only [ended, runSession, run_of_read_all _ _ read]
    unfold body
    cbv
  exact ⟨bound, written_functions_run_as_themselves .empty _ _ _ (.inr ⟨"f", bound⟩)
    ⟨1, .evaluated⟩ (by decide) ⟨[], 7⟩ .empty⟩

end TinyLisp
