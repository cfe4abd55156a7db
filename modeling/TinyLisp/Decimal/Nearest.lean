/-!
The double nearest to a decimal number, computed exactly.

A finite magnitude is the natural number that its sixty-three low bits spell, so magnitudes are
ordered as the doubles are, and the pattern after the greatest finite one is infinity.
-/

set_option autoImplicit false

namespace TinyLisp

structure Fraction where
  numerator : Nat
  denominator : Nat
  deriving DecidableEq, Repr

namespace Fraction

def scale (fraction : Fraction) (base : Nat) (exponent : Int) : Fraction where
  numerator := fraction.numerator * base.pow exponent.toNat
  denominator := fraction.denominator * base.pow (-exponent).toNat

def floor (fraction : Fraction) : Nat :=
  fraction.numerator / fraction.denominator

def twiceRemainder (fraction : Fraction) : Nat :=
  2 * (fraction.numerator % fraction.denominator)

/-- The nearest natural number; a half goes to the even neighbour. -/
def roundHalfEven (fraction : Fraction) : Nat :=
  if fraction.twiceRemainder < fraction.denominator then
    fraction.floor
  else if fraction.denominator < fraction.twiceRemainder then
    fraction.floor + 1
  else
    fraction.floor + fraction.floor % 2

end Fraction

namespace Magnitude

def infinity : Nat := 2047 * Nat.pow 2 52

/-- The exponent of the last binary place that a double near a nonzero fraction keeps. The fraction
has 2^52 to 2^53 units of that place, or fewer where the least exponent of all stops it. -/
def lastPlace (fraction : Fraction) : Int :=
  let estimate : Int := (fraction.numerator.log2 : Int) - fraction.denominator.log2
  let normal := if 1 ≤ (fraction.scale 2 (-estimate)).floor then estimate - 52 else estimate - 53
  max normal (-1074)

/-- The magnitude nearest to a fraction. A rounding that carries out of the significand moves to the
next exponent, since both are digits of one number, and past the last exponent to infinity. -/
def nearestFraction (fraction : Fraction) : Nat :=
  if fraction.numerator = 0 then
    0
  else
    let place := lastPlace fraction
    min infinity ((place + 1074).toNat * Nat.pow 2 52 + (fraction.scale 2 (-place)).roundHalfEven)

end Magnitude

structure Decimal where
  digits : Nat
  exponent : Int
  deriving DecidableEq, Repr

namespace Decimal

def toFraction (decimal : Decimal) : Fraction :=
  Fraction.scale ⟨decimal.digits, 1⟩ 10 decimal.exponent

/-- The magnitude nearest to a decimal. Everything above 10^310 is infinite and everything below
10^-325 is zero, so that no power of ten is computed that is much longer than the digits. -/
def nearest (decimal : Decimal) : Nat :=
  if decimal.digits = 0 then
    0
  else if 310 < decimal.exponent then
    Magnitude.infinity
  else if decimal.exponent + decimal.digits.log2 < -325 then
    0
  else
    Magnitude.nearestFraction decimal.toFraction

end Decimal

end TinyLisp
