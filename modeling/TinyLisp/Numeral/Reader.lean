import TinyLisp.Decimal.Nearest

/-!
Numerals: the spellings that are read as a double.

A plain numeral is an optional sign and a decimal literal, or one of the words `nan`, `inf` and
`infinity` without a sign. A numeral is a plain one, or a sign before a plain one that is not
finite.
-/

set_option autoImplicit false

namespace TinyLisp

namespace Numeral

def digitsValue (digits : List Char) : Nat :=
  digits.foldl (fun total digit => 10 * total + (digit.toNat - '0'.toNat)) 0

/-- The value of the digits of an exponent. They count until they reach 65536, where any literal of
ordinary length is zero or infinite already, and the digits after that are passed over. -/
def exponentValue (digits : List Char) : Nat :=
  digits.foldl
    (fun total digit =>
      if total < 65536 then 10 * total + (digit.toNat - '0'.toNat) else total)
    0

/-- Whether a sign is a minus, and what follows the sign. -/
def splitSign : List Char → Bool × List Char
  | '-' :: rest => (true, rest)
  | '+' :: rest => (false, rest)
  | spelling => (false, spelling)

def exponent? : List Char → Option Int
  | [] => some 0
  | marker :: rest =>
      let (negative, digits) := splitSign rest
      if (marker = 'e' ∨ marker = 'E') ∧ digits ≠ [] ∧ digits.all Char.isDigit then
        some (if negative then -(exponentValue digits : Int) else exponentValue digits)
      else
        none

def splitFraction : List Char → List Char × List Char
  | '.' :: rest => rest.span Char.isDigit
  | rest => ([], rest)

/-- An unsigned decimal literal: digits on at least one side of an optional point, then the
exponent. -/
def decimal? (spelling : List Char) : Option Decimal :=
  let (whole, afterWhole) := spelling.span Char.isDigit
  let (fraction, afterFraction) := splitFraction afterWhole
  if whole = [] ∧ fraction = [] then
    none
  else
    (exponent? afterFraction).map fun exponent =>
      ⟨digitsValue (whole ++ fraction), exponent - fraction.length⟩

def ofDecimal (negative : Bool) (decimal : Decimal) : Float :=
  Float.ofBits (UInt64.ofNat ((if negative then Nat.pow 2 63 else 0) + decimal.nearest))

/-- The words for the doubles that are not finite, in any letter case. -/
def word? (spelling : List Char) : Option Float :=
  let lower := spelling.map Char.toLower
  if lower = ['n', 'a', 'n'] then
    some (Float.ofBits 0x7FF8000000000000)
  else if lower = ['i', 'n', 'f'] ∨ lower = ['i', 'n', 'f', 'i', 'n', 'i', 't', 'y'] then
    some (Float.ofBits 0x7FF0000000000000)
  else
    none

def plain? (spelling : List Char) : Option Float :=
  let (negative, unsigned) := splitSign spelling
  match decimal? unsigned with
  | some decimal => some (ofDecimal negative decimal)
  | none => word? spelling

/-- The double that a sign before a plain numeral makes, if that numeral is not finite. -/
def signed? : List Char → Option Float
  | '-' :: rest => ((plain? rest).filter fun value => !value.isFinite).map fun value => -value
  | '+' :: rest => (plain? rest).filter fun value => !value.isFinite
  | _ => none

def read? (spelling : List Char) : Option Float :=
  match plain? spelling with
  | some value => some value
  | none => signed? spelling

/-- A spelling that starts as a decimal literal does, whether or not it goes on as one: a digit
after an optional sign and an optional point. -/
def looksNumeric (spelling : List Char) : Bool :=
  let unsigned := (splitSign spelling).2
  let digits := match unsigned with
    | '.' :: rest => rest
    | _ => unsigned
  match digits with
  | first :: _ => first.isDigit
  | [] => false

def ofInt (number : Int) : Float :=
  ofDecimal (number < 0) ⟨number.natAbs, 0⟩

end Numeral

end TinyLisp
