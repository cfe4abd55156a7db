import TinyLisp.Decimal.Nearest

/-!
The shortest decimal that reads back as a given finite magnitude, and of those the closest one.

The search goes from the coarsest decimal grid to the finest. On each grid only the two neighbours
of the exact value matter: if any point of the grid reads back, one of them does. The first grid
that has such a neighbour gives the fewest digits, and its digits end in no zero.
-/

set_option autoImplicit false

namespace TinyLisp

namespace Magnitude

def toFraction (magnitude : Nat) : Fraction :=
  let field : Nat := magnitude / Nat.pow 2 52
  let fraction : Nat := magnitude % Nat.pow 2 52
  if field = 0 then
    Fraction.scale ⟨fraction, 1⟩ 2 (-1074)
  else
    Fraction.scale ⟨Nat.pow 2 52 + fraction, 1⟩ 2 ((field : Int) - 1075)

def digitCount (number : Nat) : Nat :=
  (Nat.toDigits 10 number).length

/-- The exponent of a power of ten that a nonzero fraction does not exceed, with at most one decimal
place to spare. -/
def decade (fraction : Fraction) : Int :=
  if 1 ≤ fraction.floor then
    digitCount fraction.floor
  else
    1 - (digitCount (fraction.denominator / fraction.numerator) : Int)

/-- The neighbour on a decimal grid that reads back as the magnitude. If both do, the closer one is
taken, and of two equally close ones the upper. -/
def neighbour? (magnitude : Nat) (exact : Fraction) (grid : Int) : Option Decimal :=
  let units := exact.scale 10 (-grid)
  let lower : Decimal := ⟨units.floor, grid⟩
  let upper : Decimal := ⟨units.floor + 1, grid⟩
  let closer := if units.twiceRemainder < units.denominator then lower else upper
  let further := if units.twiceRemainder < units.denominator then upper else lower
  if closer.nearest = magnitude then
    some closer
  else if further.nearest = magnitude then
    some further
  else
    none

def allDigits (exact : Fraction) : Decimal :=
  let places := exact.denominator.log2
  ⟨exact.numerator * Nat.pow 5 places, -(places : Int)⟩

def searchGrids (magnitude : Nat) (exact : Fraction) : Nat → Int → Decimal
  | 0, _ => allDigits exact
  | grids + 1, grid =>
      match neighbour? magnitude exact grid with
      | some decimal => decimal
      | none => searchGrids magnitude exact grids (grid - 1)

/-- The shortest decimal of a finite nonzero magnitude. Seventeen digits always suffice, which is
eighteen grids, since the first of them has room for no digit of the value itself. -/
def shortest (magnitude : Nat) : Decimal :=
  let exact := toFraction magnitude
  searchGrids magnitude exact 18 (decade exact)

end Magnitude

end TinyLisp
