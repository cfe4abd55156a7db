import TinyLisp.Text.Combining

/-!
Inspected text: a form for diagnostics in which every character can be told from every other.
-/

set_option autoImplicit false

namespace TinyLisp

namespace Text

def inspectCodePoint (char : Char) : List Char :=
  '\\' :: 'u' :: '\x7b' :: (Nat.toDigits 16 char.toNat ++ ['\x7d'])

/-- A character inside inspected text. Those that cannot be seen, and those that would attach to the
character before them, are given by code point. -/
def inspectChar (char : Char) : List Char :=
  if char = '\x00' then ['\\', '0']
  else if char = '\t' then ['\\', 't']
  else if char = '\r' then ['\\', 'r']
  else if char = '\n' then ['\\', 'n']
  else if char = '"' ∨ char = '\\' then ['\\', char]
  else if isPrintable char && !isCombining char then [char]
  else inspectCodePoint char

/-- A text in quotes, each character as `inspectChar` writes it. -/
def inspect (text : String) : String :=
  String.ofList ('"' :: (text.toList.flatMap inspectChar ++ ['"']))

end Text

end TinyLisp
