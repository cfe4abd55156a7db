import Mathlib.Algebra.Ring.Parity
import Mathlib.Data.List.DropRight
import TinyLisp.Text.Quoted

/-!
Where a quoted text ends.

A character is escaped if an odd number of backslashes stands right before it. A literal goes from
its opening quote to the first quote behind it that is not escaped, and unquoting accepts the
literals and nothing else.
-/

set_option autoImplicit false

namespace TinyLisp

namespace Text

/-- Whether some characters escape the one behind them. -/
def EscapesNext (front : List Char) : Prop :=
  Odd (front.rtakeWhile (· == '\\')).length

instance (front : List Char) : Decidable (EscapesNext front) :=
  inferInstanceAs (Decidable (Odd _))

/-- Characters behind an opening quote that do not close it: every quote in them is escaped. -/
def Unclosed (contents : List Char) : Prop :=
  ∀ front back, contents = front ++ '"' :: back → EscapesNext front

/-- Characters behind an opening quote that the next quote closes, and none before it. -/
structure IsContents (contents : List Char) : Prop where
  unclosed : Unclosed contents
  unescaped : ¬EscapesNext contents

/-- What follows the opening quote of a literal: its contents and the closing quote. -/
def Closes (rest : List Char) : Prop :=
  ∃ contents, rest = contents ++ ['"'] ∧ IsContents contents

def IsLiteral (spelling : List Char) : Prop :=
  ∃ rest, spelling = '"' :: rest ∧ Closes rest

/-- A literal that is cut short before its closing quote. -/
def IsCutLiteral (spelling : List Char) : Prop :=
  ∃ contents, spelling = '"' :: contents ∧ Unclosed contents

theorem not_escapes_next_nil : ¬EscapesNext [] := by
  simp [EscapesNext]

theorem escapes_next_concat_iff (front : List Char) (char : Char) :
    EscapesNext (front ++ [char]) ↔ char = '\\' ∧ ¬EscapesNext front := by
  unfold EscapesNext
  by_cases backslash : char = '\\'
  · have taken : (char == '\\') = true := beq_iff_eq.mpr backslash
    rw [List.rtakeWhile_concat_pos (· == '\\') front char taken, List.length_append,
      List.length_singleton, Nat.odd_add_one]
    simp [backslash]
  · have stopped : ¬(char == '\\') = true := mt beq_iff_eq.mp backslash
    rw [List.rtakeWhile_concat_neg (· == '\\') front char stopped]
    simp [backslash]

/-- What escapes nothing behind it can be left out. -/
theorem escapes_next_append_iff {front : List Char} (unescaped : ¬EscapesNext front)
    (back : List Char) : EscapesNext (front ++ back) ↔ EscapesNext back := by
  induction back using List.reverseRecOn with
  | nil =>
      rw [List.append_nil]
      exact iff_of_false unescaped not_escapes_next_nil
  | append_singleton back char ih =>
      rw [← List.append_assoc, escapes_next_concat_iff, escapes_next_concat_iff, ih]

theorem unclosed_nil : Unclosed [] := by
  intro front back split
  simp at split

/-- Contents stay unclosed with one more character, unless it is a quote that they do not escape. -/
theorem unclosed_concat_iff (contents : List Char) (char : Char) :
    Unclosed (contents ++ [char]) ↔ Unclosed contents ∧ (char = '"' → EscapesNext contents) := by
  constructor
  · intro unclosed
    constructor
    · intro front back split
      apply unclosed front (back ++ [char])
      rw [split, List.append_assoc, List.cons_append]
    · intro quote
      exact unclosed contents [] (by rw [quote])
  · intro extended front back split
    obtain ⟨unclosed, lastEscaped⟩ := extended
    cases back using List.reverseRecOn with
    | nil =>
        obtain ⟨rfl, quote⟩ := List.append_inj' split rfl
        exact lastEscaped (List.singleton_inj.mp quote)
    | append_singleton back last =>
        rw [← List.cons_append, ← List.append_assoc] at split
        exact unclosed front back (List.append_inj' split rfl).1

theorem is_contents_nil : IsContents [] :=
  ⟨unclosed_nil, not_escapes_next_nil⟩

theorem is_contents_singleton {char : Char} (notQuote : char ≠ '"') (notBackslash : char ≠ '\\') :
    IsContents [char] := by
  rw [← List.nil_append [char]]
  constructor
  · rw [unclosed_concat_iff]
    exact ⟨unclosed_nil, fun quote => absurd quote notQuote⟩
  · rw [escapes_next_concat_iff]
    exact fun escapes => notBackslash escapes.1

/-- A backslash and whatever it escapes. -/
theorem is_contents_pair (escaped : Char) : IsContents ['\\', escaped] := by
  have backslash : EscapesNext ['\\'] :=
    (escapes_next_concat_iff [] '\\').mpr ⟨rfl, not_escapes_next_nil⟩
  have backslashUnclosed : Unclosed ['\\'] :=
    (unclosed_concat_iff [] '\\').mpr ⟨unclosed_nil, nofun⟩
  rw [← List.singleton_append]
  constructor
  · rw [unclosed_concat_iff]
    exact ⟨backslashUnclosed, fun _ => backslash⟩
  · rw [escapes_next_concat_iff]
    exact fun escapes => escapes.2 backslash

theorem IsContents.append_iff {first : List Char} (isContents : IsContents first)
    (second : List Char) : IsContents (first ++ second) ↔ IsContents second := by
  have unclosed : Unclosed (first ++ second) ↔ Unclosed second := by
    induction second using List.reverseRecOn with
    | nil =>
        rw [List.append_nil]
        exact iff_of_true isContents.unclosed unclosed_nil
    | append_singleton second char ih =>
        rw [← List.append_assoc, unclosed_concat_iff, unclosed_concat_iff, ih,
          escapes_next_append_iff isContents.unescaped]
  have escapes := escapes_next_append_iff isContents.unescaped second
  constructor
  · intro both
    exact ⟨unclosed.mp both.unclosed, mt escapes.mpr both.unescaped⟩
  · intro second
    exact ⟨unclosed.mpr second.unclosed, mt escapes.mp second.unescaped⟩

/-- A literal is closed behind contents just where it would be without them. -/
theorem IsContents.closes_append_iff {first : List Char} (isContents : IsContents first)
    (rest : List Char) : Closes (first ++ rest) ↔ Closes rest := by
  constructor
  · intro closes
    obtain ⟨contents, split, whole⟩ := closes
    rcases List.append_eq_append_iff.mp split with ⟨second, rfl, rfl⟩ | ⟨within, rfl, inside⟩
    · exact ⟨second, rfl, (isContents.append_iff second).mp whole⟩
    · -- The closing quote would stand within what closes nothing.
      cases within with
      | nil => exact ⟨[], inside.symm, is_contents_nil⟩
      | cons quote within =>
          obtain ⟨rfl, -⟩ := List.cons.inj inside
          exact absurd (isContents.unclosed contents within rfl) whole.unescaped
  · intro closes
    obtain ⟨contents, rfl, whole⟩ := closes
    have both := (isContents.append_iff contents).mpr whole
    exact ⟨first ++ contents, (List.append_assoc ..).symm, both⟩

theorem closes_quote_iff (rest : List Char) : Closes ('"' :: rest) ↔ rest = [] := by
  constructor
  · intro closes
    obtain ⟨contents, split, whole⟩ := closes
    cases contents with
    | nil => exact (List.cons.inj split).2
    | cons char contents =>
        obtain ⟨rfl, -⟩ := List.cons.inj split
        exact absurd (whole.unclosed [] contents rfl) not_escapes_next_nil
  · intro empty
    rw [empty]
    exact ⟨[], rfl, is_contents_nil⟩

/-- Unescaping takes a character by itself only if it is no backslash. -/
theorem not_backslash_of_no_pair {char : Char} {rest : List Char}
    (notLone : char = '\\' → rest = [] → False)
    (notPair : ∀ escaped behind, char = '\\' → rest = escaped :: behind → False) :
    char ≠ '\\' := by
  intro backslash
  cases rest with
  | nil => exact notLone backslash rfl
  | cons escaped behind => exact notPair escaped behind backslash rfl

theorem unescape_is_some_iff (rest : List Char) : (unescape? rest).isSome ↔ Closes rest := by
  fun_induction unescape? rest with
  | case1 =>
      refine iff_of_false nofun ?_
      intro closes
      obtain ⟨contents, split, -⟩ := closes
      simp at split
  | case2 => simp [closes_quote_iff]
  | case3 rest behind => simp [closes_quote_iff, behind]
  | case4 =>
      refine iff_of_false nofun ?_
      intro closes
      obtain ⟨contents, split, -⟩ := closes
      cases contents <;> simp at split
  | case5 escaped rest ih =>
      have pair := (is_contents_pair escaped).closes_append_iff rest
      rw [Option.isSome_map, ih]
      exact pair.symm
  | case6 char rest notQuote notLone notBackslash ih =>
      have ordinary := not_backslash_of_no_pair notLone notBackslash
      have single := (is_contents_singleton notQuote ordinary).closes_append_iff rest
      rw [Option.isSome_map, ih]
      exact single.symm

/-- Unquoting accepts the literals and nothing else. -/
theorem unquote_is_some_iff (spelling : List Char) :
    (unquote? spelling).isSome ↔ IsLiteral spelling := by
  unfold unquote?
  split
  case h_1 rest =>
    rw [unescape_is_some_iff]
    constructor
    · intro closes
      exact ⟨rest, rfl, closes⟩
    · intro isLiteral
      obtain ⟨again, same, closes⟩ := isLiteral
      rwa [(List.cons.inj same).2]
  case h_2 notQuoted =>
    refine iff_of_false nofun ?_
    intro isLiteral
    obtain ⟨rest, starts, -⟩ := isLiteral
    exact notQuoted rest starts

instance (spelling : List Char) : Decidable (IsLiteral spelling) :=
  decidable_of_iff _ (unquote_is_some_iff spelling)

theorem mem_of_mem_escape {char : Char} {contents : List Char} (member : char ∈ escape contents) :
    char = '\\' ∨ char ∈ contents := by
  induction contents with
  | nil => exact .inr member
  | cons first rest ih =>
      rw [escape] at member
      split at member <;> grind

/-- Quoting adds nothing but quotes and backslashes. -/
theorem mem_of_mem_quote {char : Char} {contents : List Char} (member : char ∈ quote contents) :
    char = '"' ∨ char = '\\' ∨ char ∈ contents := by
  rcases List.mem_cons.mp member with quote | inside
  · exact .inl quote
  · rcases List.mem_append.mp inside with escaped | quote
    · exact .inr (mem_of_mem_escape escaped)
    · exact .inl (List.mem_singleton.mp quote)

theorem is_literal_quote (contents : List Char) : IsLiteral (quote contents) := by
  rw [← unquote_is_some_iff, unquote?_quote]
  rfl

theorem IsCutLiteral.not_literal {spelling : List Char} (cut : IsCutLiteral spelling) :
    ¬IsLiteral spelling := by
  intro isLiteral
  obtain ⟨cutContents, rfl, unclosed⟩ := cut
  obtain ⟨rest, same, contents, rfl, whole⟩ := isLiteral
  exact whole.unescaped (unclosed contents [] (List.cons.inj same).2)

end Text

end TinyLisp
