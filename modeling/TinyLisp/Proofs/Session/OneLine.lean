import TinyLisp.Proofs.Session.WrittenFunctions
import TinyLisp.Proofs.Text.OneLine
import TinyLisp.Proofs.Value.Faults

/-!
Sessions that stay on one line.

If no source text has a line feed but the one that ends it, then no value that is read, made, bound
or returned has one, nor any message of a failure. For an atom never takes in the line feed at the
end of a text, reading adds no characters, and evaluation adds no names.
-/

set_option autoImplicit false

namespace TinyLisp

namespace Value

def IsOneLineNode : Value → Prop
  | .symbol name => Text.OneLine name
  | .text contents => Text.OneLine contents
  | .function params _ => ∀ param ∈ params, Text.OneLine param
  | _ => True

/-- No name and no text inside of a value has a line feed. -/
def OneLine (value : Value) : Prop :=
  ∀ depth node, value.HasNode depth node → node.IsOneLineNode

section OneLine

theorem OneLine.itself {value : Value} (oneLine : value.OneLine) : value.IsOneLineNode :=
  oneLine 0 value (.root value)

theorem one_line_symbol_iff {name : String} :
    (Value.symbol name).OneLine ↔ Text.OneLine name := by
  constructor
  · exact OneLine.itself
  · intro oneLine
    exact forall_nodes_of_leaf oneLine nofun

theorem one_line_list_iff {elements : List Value} :
    (Value.list elements).OneLine ↔ ∀ element ∈ elements, element.OneLine :=
  forall_nodes_list_iff.trans (and_iff_right trivial)

theorem one_line_function_iff {params : List String} {body : List Value} :
    (Value.function params body).OneLine ↔
      (∀ param ∈ params, Text.OneLine param) ∧ ∀ expression ∈ body, expression.OneLine :=
  forall_nodes_function_iff

theorem line_feed_not_mem_spaced_chars {values : List Value}
    (each : ∀ value ∈ values, '\n' ∉ value.chars) : '\n' ∉ spacedChars values := by
  induction values with
  | nil => exact List.not_mem_nil
  | cons value values ih =>
      obtain ⟨first, rest⟩ := List.forall_mem_cons.mp each
      simp [spacedChars, first, ih rest]

theorem line_feed_not_mem_list_chars {elements : List Value}
    (each : ∀ element ∈ elements, '\n' ∉ element.chars) : '\n' ∉ (Value.list elements).chars := by
  cases elements with
  | nil => decide
  | cons first rest =>
      obtain ⟨firstFree, restFree⟩ := List.forall_mem_cons.mp each
      simp [chars_list_cons, firstFree, line_feed_not_mem_spaced_chars restFree]

theorem line_feed_not_mem_chars {value : Value} (oneLine : value.OneLine) : '\n' ∉ value.chars := by
  induction value with
  | symbol name => exact oneLine.itself
  | text contents =>
      rw [chars_text]
      exact Text.line_feed_not_mem_quote oneLine.itself
  | number number =>
      intro member
      have allowed := (word_of_numeral number).2 '\n' member
      contradiction
  | list elements ih =>
      apply line_feed_not_mem_list_chars
      intro element member
      exact ih element member (one_line_list_iff.mp oneLine element member)
  | function params body ih =>
      obtain ⟨paramsFree, bodyFree⟩ := one_line_function_iff.mp oneLine
      -- A function is written as the form that makes it.
      have names : ∀ param ∈ params.map Value.symbol, '\n' ∉ param.chars := by
        intro param member
        obtain ⟨name, listed, rfl⟩ := List.mem_map.mp member
        exact paramsFree name listed
      have head : '\n' ∉ (Value.symbol "lambda").chars := by decide
      rw [chars_function, lambdaForm]
      apply line_feed_not_mem_list_chars
      intro element member
      rcases List.mem_cons.mp member with rfl | member
      · exact head
      rcases List.mem_cons.mp member with rfl | member
      · exact line_feed_not_mem_list_chars names
      · exact ih element member (bodyFree element member)

theorem one_line_render {value : Value} (oneLine : value.OneLine) : Text.OneLine value.render :=
  (Text.one_line_of_list_iff _).mpr (line_feed_not_mem_chars oneLine)

end OneLine

end Value

section Reading

variable {source : String}

/-- No atom of a text takes in the line feed that ends it. -/
theorem one_line_of_atom (oneLine : Text.OneLine source) {spelling : String}
    (member : .atom spelling ∈ Token.tokenize (source ++ "\n")) : Text.OneLine spelling := by
  have allowed : ∀ char ∈ source.toList, char ≠ '\n' := by
    rintro char listed rfl
    exact oneLine listed
  have only := Token.only_tokenize_line allowed _ member
  intro inside
  exact only '\n' inside rfl

theorem Value.one_line_of_read_all (oneLine : Text.OneLine source) {values : List Value}
    (read : readAll (Token.tokenize (source ++ "\n")) = .ok values) :
    ∀ value ∈ values, value.OneLine := by
  intro value member depth node inside
  rcases made_from_of_read_all read value member depth node inside
    with ⟨elements, rfl⟩ | ⟨spelling, token, readAs⟩
  · trivial
  have spellingOneLine := one_line_of_atom oneLine token
  rcases read_atom_cases readAs with ⟨contents, unquoted, rfl⟩ | ⟨number, rfl⟩ | rfl
  · apply (Text.one_line_of_list_iff contents).mpr
    intro lineFeed
    exact spellingOneLine (Text.mem_of_unquote unquoted _ lineFeed)
  · trivial
  · exact spellingOneLine

theorem one_line_of_read_error (oneLine : Text.OneLine source) {error : ReadError}
    (refused : Value.readAll (Token.tokenize (source ++ "\n")) = .error error) :
    Text.OneLine error.message := by
  have spelled : ∀ spelling ∈ error.spelled, Text.OneLine spelling := by
    intro spelling reported
    exact one_line_of_atom oneLine (Value.refused_of_read_all refused spelling reported).1
  cases error with
  | malformedNumber spelling | malformedText spelling =>
      have given := spelled spelling List.mem_cons_self
      unfold ReadError.message
      simp only [Text.one_line_append_iff, given]
      decide
  | invalidSymbol spelling | tooDeeplyNested limit =>
      unfold ReadError.message
      simp only [Text.one_line_append_iff, Text.one_line_inspect, Text.one_line_repr]
      decide
  | _ => decide

end Reading

/-- Values on one line, in which definitions define names on one line. -/
def ValueClass.oneLine : ValueClass where
  Member := Value.OneLine
  Definable := Text.OneLine
  nil := Value.one_line_list_iff.mpr (List.forall_mem_nil _)
  number := fun number => Value.forall_nodes_of_leaf trivial nofun
  element := fun oneLine member => Value.one_line_list_iff.mp oneLine _ member
  body := fun oneLine member => (Value.one_line_function_iff.mp oneLine).2 _ member
  function := by
    intro params names first rest oneLine accepted
    obtain ⟨-, paramsOneLine, bodyOneLine⟩ :
        _ ∧ (Value.list params).OneLine ∧ ∀ expression ∈ first :: rest, expression.OneLine := by
      simpa only [List.forall_mem_cons] using Value.one_line_list_iff.mp oneLine
    obtain ⟨-, spelled⟩ := Evaluation.spelled_by_parameter_names accepted List.nodup_nil
    rw [List.map_nil, List.nil_append] at spelled
    subst spelled
    apply Value.one_line_function_iff.mpr
    constructor
    · intro name listed
      have named := Value.one_line_list_iff.mp paramsOneLine _ (List.mem_map_of_mem listed)
      exact Value.one_line_symbol_iff.mp named
    · exact bodyOneLine
  definable := by
    intro name expression oneLine
    exact Value.one_line_symbol_iff.mp (Value.one_line_list_iff.mp oneLine _ (by simp))

section Messages

theorem Value.one_line_kind (value : Value) : Text.OneLine value.kind := by
  fun_cases Value.kind value <;> decide

theorem Malformation.one_line_reason {malformation : Malformation}
    (mentioned : ∀ value ∈ malformation.mentioned, value.OneLine) :
    Text.OneLine malformation.reason := by
  cases malformation with
  | wrongCount _ _ | tooFew _ _ | nonSymbolParameter _ =>
      unfold reason
      simp only [Text.one_line_append_iff, Text.one_line_repr, Value.one_line_kind]
      decide
  | nonSymbolName found | parametersNotList found =>
      have rendered := Value.one_line_render (mentioned found List.mem_cons_self)
      unfold reason
      simp only [Text.one_line_append_iff, rendered]
      decide
  | duplicateParameter name =>
      have named := Value.one_line_symbol_iff.mp (mentioned _ List.mem_cons_self)
      unfold reason
      simp only [Text.one_line_append_iff, named]
      decide
  | _ => decide

theorem EvalError.one_line_message {error : EvalError}
    (mentioned : ∀ value ∈ error.mentioned, value.OneLine) : Text.OneLine error.message := by
  cases error with
  | unboundSymbol name =>
      have named := Value.one_line_symbol_iff.mp (mentioned _ List.mem_cons_self)
      unfold message
      simp only [Text.one_line_append_iff, named]
      decide
  | uncallableHead found | uncallableValue found =>
      have rendered := Value.one_line_render (mentioned found List.mem_cons_self)
      unfold message
      simp only [Text.one_line_append_iff, rendered]
      decide
  | typeMismatch operator found =>
      obtain ⟨operatorOneLine, foundOneLine⟩ := List.forall_mem_cons.mp mentioned
      have named := Value.one_line_symbol_iff.mp operatorOneLine
      have rendered := Value.one_line_render (foundOneLine found List.mem_cons_self)
      unfold message
      simp only [Text.one_line_append_iff, named, rendered]
      decide
  | malformedForm form malformation =>
      obtain ⟨formOneLine, reasonMentioned⟩ := List.forall_mem_cons.mp mentioned
      have named := Value.one_line_symbol_iff.mp formOneLine
      have reason := Malformation.one_line_reason reasonMentioned
      unfold message
      simp only [Text.one_line_append_iff, named, reason]
      decide
  | arityMismatch _ _ | stackExhausted _ =>
      unfold message
      simp only [Text.one_line_append_iff, Text.one_line_repr]
      decide

end Messages

section Run

variable {scope : Scope} {world : World} {source : String}

/-- The class of values on one line holds what a text on one line reads as. -/
theorem ValueClass.one_line_members (oneLine : Text.OneLine source) :
    ∀ expressions, Value.readAll (Token.tokenize (source ++ "\n")) = .ok expressions →
      ∀ expression ∈ expressions, ValueClass.oneLine.Member expression := by
  intro expressions read
  exact Value.one_line_of_read_all oneLine read

theorem one_line_of_run (config : Config) (frames : ValueClass.oneLine.BindsFrames scope)
    (bound : ValueClass.oneLine.Binds (world.root scope.root)) (oneLine : Text.OneLine source) :
    match (run config scope (source ++ "\n") world).1 with
    | .ok value => Text.OneLine value.render
    | .error error => Text.OneLine error.message := by
  have mentioned :=
    (ValueClass.keeps_run config frames (ValueClass.one_line_members oneLine) bound).2
  cases read : Value.readAll (Token.tokenize (source ++ "\n")) with
  | error error =>
      have message := one_line_of_read_error oneLine read
      rw [run, read]
      dsimp only
      unfold RunError.message
      simp only [Text.one_line_append_iff, message]
      decide
  | ok expressions =>
      rw [run_of_read_all config scope read] at mentioned ⊢
      generalize (Evaluation.lastOf (evaluate config scope 0 scope) expressions).outcome world =
        ended at mentioned ⊢
      obtain ⟨error | value, after⟩ := ended
      · have message := EvalError.one_line_message mentioned
        change Text.OneLine ("EvaluationError: " ++ error.message)
        simp only [Text.one_line_append_iff, message]
        decide
      · exact Value.one_line_render (mentioned value List.mem_cons_self)

end Run

end TinyLisp
