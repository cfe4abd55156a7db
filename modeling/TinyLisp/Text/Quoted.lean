/-!
Quoted text: the literal form of a string. Between the two quotes a backslash stands before a quote
or a backslash of the contents; before any other character it stands for itself.
-/

set_option autoImplicit false

namespace TinyLisp

namespace Text

/-- Contents with a backslash before each quote and each backslash. -/
def escape : List Char → List Char
  | [] => []
  | char :: rest =>
      if char = '"' ∨ char = '\\' then '\\' :: char :: escape rest else char :: escape rest

def quote (contents : List Char) : List Char :=
  '"' :: (escape contents ++ ['"'])

/-- The contents in front of a closing quote that ends the text. A quote that stands anywhere else
without a backslash is refused, and so is a text that ends without its closing quote. -/
def unescape? : List Char → Option (List Char)
  | [] => none
  | '"' :: rest => if rest = [] then some [] else none
  | '\\' :: [] => none
  | '\\' :: char :: rest =>
      (unescape? rest).map fun contents =>
        if char = '"' ∨ char = '\\' then char :: contents else '\\' :: char :: contents
  | char :: rest => (unescape? rest).map fun contents => char :: contents

theorem unescape?_escape (contents : List Char) :
    unescape? (escape contents ++ ['"']) = some contents := by
  induction contents with
  | nil => rfl
  | cons char rest ih =>
      by_cases special : char = '"' ∨ char = '\\'
      · simp [escape, unescape?, special, ih]
      · have notQuote : char ≠ '"' := fun same => special (.inl same)
        have notBackslash : char ≠ '\\' := fun same => special (.inr same)
        simp [escape, unescape?, notQuote, notBackslash, ih]

def unquote? : List Char → Option (List Char)
  | '"' :: rest => unescape? rest
  | _ => none

/-- Every text is the contents of its quoted form. -/
theorem unquote?_quote (contents : List Char) : unquote? (quote contents) = some contents :=
  unescape?_escape contents

end Text

end TinyLisp
