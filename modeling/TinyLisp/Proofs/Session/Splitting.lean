import TinyLisp.Proofs.Session.Run
import TinyLisp.Proofs.Value.Grammar

/-!
Splitting a source text between two expressions.

Where no atom is in progress the scanner starts anew, spellings one behind the other are read one
after the other, and expressions are evaluated one after the other. So a text that is cut there runs
as its two parts do, one after the other.
-/

set_option autoImplicit false

namespace TinyLisp

namespace Token

/-- No atom is in progress at the end of a text. -/
def Settled (source : String) : Prop :=
  (scan .none source.toList).2 = .none

theorem tokenize_append {front : String} (settled : Settled front) (back : String) :
    tokenize (front ++ back) = tokenize front ++ tokenize back := by
  rw [tokenize, String.toList_append, scan_append, settled]
  rfl

theorem tokenize_close (source : String) :
    tokenize (source ++ ")") =
      tokenize source ++ ((scan .none source.toList).2.flush ++ [.closeParen]) := by
  rw [tokenize, String.toList_append, scan_append]
  simp [tokenize, scan, Pending.advance]

theorem settled_iff (source : String) :
    Settled source ↔ tokenize (source ++ ")") = tokenize source ++ [.closeParen] := by
  rw [tokenize_close, List.append_cancel_left_eq, Settled]
  cases (scan .none source.toList).2 <;> simp [Pending.flush]

end Token

theorem Value.read_all_append {front back : List Token} {firsts seconds : List Value}
    (readFront : readAll front = .ok firsts) (readBack : readAll back = .ok seconds) :
    readAll (front ++ back) = .ok (firsts ++ seconds) := by
  obtain ⟨frontParts, rfl, frontEach⟩ := read_all_iff.mp readFront
  obtain ⟨backParts, rfl, backEach⟩ := read_all_iff.mp readBack
  rw [← List.flatten_append]
  exact read_all_iff.mpr ⟨_, rfl, List.rel_append frontEach backEach⟩

/-- The value of the last expression replaces those before it, if there is an expression at all. -/
theorem Evaluation.last_of_append (evaluate : Value → Evaluation Value)
    (firsts seconds : List Value) :
    lastOf evaluate (firsts ++ seconds) = (do
      let value ← lastOf evaluate firsts
      if seconds.isEmpty then pure value else lastOf evaluate seconds) := by
  rw [lastOf, List.foldlM_append]
  cases seconds with
  | nil => rfl
  | cons second seconds => rfl

/-- Let two texts be readable, and let no atom be in progress where they meet. If the first one
fails, both together fail like it and leave what it leaves. Otherwise both together do what the
second one does after the first one, and the result is that of the second one if there is an
expression in it. -/
theorem run_append_at_boundary (config : Config) (scope : Scope) {front back : String}
    {firsts seconds : List Value}
    (readFront : Value.readAll (Token.tokenize front) = .ok firsts)
    (readBack : Value.readAll (Token.tokenize back) = .ok seconds) (world : World) :
    (Token.Settled front ↔
        Token.tokenize (front ++ ")") = Token.tokenize front ++ [.closeParen]) ∧
      (Token.Settled front →
        (∀ error after, run config scope front world = (.error error, after) →
          run config scope (front ++ back) world = (.error error, after)) ∧
        (∀ value between, run config scope front world = (.ok value, between) →
          run config scope (front ++ back) world =
            (if seconds.isEmpty then .ok value else (run config scope back between).1,
              (run config scope back between).2))) := by
  refine ⟨Token.settled_iff front, fun settled => ?_⟩
  have readBoth : Value.readAll (Token.tokenize (front ++ back)) = .ok (firsts ++ seconds) := by
    rw [Token.tokenize_append settled]
    exact Value.read_all_append readFront readBack
  rw [run_of_read_all config scope readBoth, run_of_read_all config scope readFront,
    Evaluation.last_of_append, Evaluation.outcome_bind]
  rcases (Evaluation.lastOf (evaluate config scope 0 scope) firsts).outcome world
    with ⟨failure | result, reached⟩
  -- A failure in the first text ends the joined run before anything of the second is evaluated.
  · constructor
    · intro error after failed
      exact failed
    · intro value between succeeded
      cases succeeded
  · constructor
    · intro error after failed
      cases failed
    · intro value between succeeded
      cases succeeded
      rw [run_of_read_all config scope readBack]
      cases seconds <;> rfl

theorem run_definition_then_use :
    Token.Settled "(defvar x \"a b\")" ∧
      run ⟨256, .unevaluated⟩ ⟨[], 0⟩ ("(defvar x \"a b\")" ++ "x ") .empty =
        run ⟨256, .unevaluated⟩ ⟨[], 0⟩ "x "
          (run ⟨256, .unevaluated⟩ ⟨[], 0⟩ "(defvar x \"a b\")" .empty).2 := by
  have settled : Token.Settled "(defvar x \"a b\")" := rfl
  have readFront : Value.readAll (Token.tokenize "(defvar x \"a b\")") =
      .ok [.list [.symbol "defvar", .symbol "x", .text "a b"]] := by
    have tokens : Token.tokenize "(defvar x \"a b\")" =
        [.openParen, .atom "defvar", .atom "x", .atom "\"a b\"", .closeParen] := by
      cbv
    have head : readAtom "defvar" = .ok (.symbol "defvar") := rfl
    have name : readAtom "x" = .ok (.symbol "x") := rfl
    have text : readAtom "\"a b\"" = .ok (.text "a b") := rfl
    rw [tokens]
    simp [Value.readAll, Value.readOnward, Value.readAt, Value.readElements, maxNesting, head, name,
      text, Except.map]
  have readBack : Value.readAll (Token.tokenize "x ") = .ok [.symbol "x"] := by
    cbv
  have defined : (run ⟨256, .unevaluated⟩ ⟨[], 0⟩ "(defvar x \"a b\")" .empty).1 =
      .ok (.text "a b") := by
    rw [run_of_read_all _ _ readFront]
    cbv
  have together := ((run_append_at_boundary ⟨256, .unevaluated⟩ ⟨[], 0⟩ readFront readBack
    .empty).2 settled).2 (.text "a b") _ (Prod.ext defined rfl)
  exact ⟨settled, together⟩

end TinyLisp
