import Mathlib
import TinyLisp.Proofs.Text.Literals
import TinyLisp.Text.Blank
import TinyLisp.Text.Inspected

/-!
Texts on one line.

A text is on one line if it has no line feed. Putting texts together keeps this, and so do quoting a
text and taking the blanks off its ends. A number in digits is on one line, and an inspected text is
as well, whatever it shows.
-/

set_option autoImplicit false

namespace TinyLisp

namespace Text

def OneLine (text : String) : Prop :=
  '\n' ∉ text.toList

instance (text : String) : Decidable (OneLine text) :=
  inferInstanceAs (Decidable ('\n' ∉ text.toList))

@[simp] theorem one_line_append_iff (front back : String) :
    OneLine (front ++ back) ↔ OneLine front ∧ OneLine back := by
  simp [OneLine]

@[simp] theorem one_line_of_list_iff (chars : List Char) :
    OneLine (String.ofList chars) ↔ '\n' ∉ chars := by
  simp [OneLine]

theorem line_feed_not_mem_digits {base : Nat} (proper : 1 < base) (small : base ≤ 16)
    (number : Nat) : '\n' ∉ Nat.toDigits base number := by
  have digit : ∀ value < 16, '\n' ≠ Nat.digitChar value := by decide
  induction number using Nat.strong_induction_on with
  | _ number ih =>
      by_cases single : number < base
      · rw [Nat.toDigits_of_lt_base single, List.mem_singleton]
        exact digit number (by omega)
      · have enough : base ≤ number := Nat.not_lt.mp single
        have shorter := ih (number / base) (Nat.div_lt_self (by omega) proper)
        have remainder : number % base < base := Nat.mod_lt number (by omega)
        have last := digit (number % base) (by omega)
        rw [Nat.toDigits_of_base_le proper enough]
        simp [shorter, last]

@[simp] theorem one_line_repr (number : Nat) : OneLine (Nat.repr number) := by
  rw [← Nat.toString_eq_repr, Nat.toString_eq_ofList_toDigits, one_line_of_list_iff]
  exact line_feed_not_mem_digits (by decide) (by decide) number

theorem line_feed_not_mem_inspect_char (char : Char) : '\n' ∉ inspectChar char := by
  by_cases isLineFeed : char = '\n'
  · subst isLineFeed
    decide
  · have plain : '\n' ≠ char := fun same => isLineFeed same.symm
    have proper : 1 < 16 := by decide
    have digits := line_feed_not_mem_digits proper (Nat.le_refl 16) char.toNat
    unfold inspectChar
    split_ifs <;> simp [plain, inspectCodePoint, digits]

@[simp] theorem one_line_inspect (text : String) : OneLine (inspect text) := by
  rw [inspect, one_line_of_list_iff]
  simp [line_feed_not_mem_inspect_char]

theorem line_feed_not_mem_quote {contents : List Char} (oneLine : '\n' ∉ contents) :
    '\n' ∉ quote contents := by
  intro lineFeed
  exact oneLine (by simpa using mem_of_mem_quote lineFeed)

theorem mem_of_mem_trim_blanks {char : Char} {text : List Char} (member : char ∈ trimBlanks text) :
    char ∈ text := by
  have inside := (List.dropWhile_suffix isBlank).mem (List.mem_reverse.mp member)
  exact (List.dropWhile_suffix isBlank).mem (List.mem_reverse.mp inside)

end Text
end TinyLisp
