import TinyLisp.Decimal.Nearest

/-!
Positional notation: the digits of a decimal around a point, padded with zeros and without an
exponent.
-/

set_option autoImplicit false

namespace TinyLisp

namespace Decimal

def wholePart (digits : List Char) (places : Nat) : List Char :=
  if places < digits.length then digits.take (digits.length - places) else ['0']

def fractionPart (digits : List Char) (places : Nat) : List Char :=
  List.replicate (places - digits.length) '0' ++ digits.drop (digits.length - places)

/-- A decimal in positional notation. A point is written only where digits follow it. -/
def positional (decimal : Decimal) : List Char :=
  let digits := Nat.toDigits 10 decimal.digits
  let places := (-decimal.exponent).toNat
  if places = 0 then
    digits ++ List.replicate decimal.exponent.toNat '0'
  else
    wholePart digits places ++ '.' :: fractionPart digits places

end Decimal

end TinyLisp
