import TinyLisp.Decimal.Positional
import TinyLisp.Decimal.Shortest

/-!
The numeral that a double is written as: the shortest digits that read back as it, in positional
notation.
-/

set_option autoImplicit false

namespace TinyLisp

namespace Numeral

def ofMagnitude (magnitude : Nat) : List Char :=
  if magnitude = 0 then
    ['0']
  else if magnitude = Magnitude.infinity then
    ['i', 'n', 'f']
  else
    (Magnitude.shortest magnitude).positional

/-- The characters of a double's text. Zero keeps its sign, and a NaN has none. -/
def chars (value : Float) : List Char :=
  let bits := value.toBits.toNat
  let magnitude := bits % Nat.pow 2 63
  if Magnitude.infinity < magnitude then
    ['N', 'a', 'N']
  else if bits < Nat.pow 2 63 then
    ofMagnitude magnitude
  else
    '-' :: ofMagnitude magnitude

def ofFloat (value : Float) : String :=
  String.ofList (chars value)

end Numeral

end TinyLisp
