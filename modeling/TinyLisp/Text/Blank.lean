/-!
Blank characters, by the property White_Space of the Unicode character database, and lines without
the blanks around them.
-/

set_option autoImplicit false

namespace TinyLisp

namespace Text

/-- Whether a character is white space in any script. -/
def isBlank (char : Char) : Bool :=
  let codePoint := char.toNat
  (0x09 ≤ codePoint && codePoint ≤ 0x0D) || codePoint == 0x20 || codePoint == 0x85 ||
    codePoint == 0xA0 || codePoint == 0x1680 || (0x2000 ≤ codePoint && codePoint ≤ 0x200A) ||
    codePoint == 0x2028 || codePoint == 0x2029 || codePoint == 0x202F || codePoint == 0x205F ||
    codePoint == 0x3000

def trimBlanks (text : List Char) : List Char :=
  ((text.dropWhile isBlank).reverse.dropWhile isBlank).reverse

end Text

end TinyLisp
