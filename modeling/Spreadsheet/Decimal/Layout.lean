import Spreadsheet.Decimal.Shortest

-- How floats are written: always positional in cell text; in messages about formulas with a
-- fraction or, for very large and very small numbers, with a power of ten.

set_option autoImplicit false

namespace Spreadsheet.Decimal

def zeros (n : Nat) : List Char := List.replicate n '0'

def Numeral.positional (n : Numeral) : List Char :=
  let digits := digitsOfNat n.digits
  if 0 ≤ n.exponent then digits ++ zeros n.exponent.toNat
  else
    let point : Int := digits.length + n.exponent
    if 0 < point then digits.take point.toNat ++ ['.'] ++ digits.drop point.toNat
    else ['0', '.'] ++ zeros (-point).toNat ++ digits

def intText (n : Int) : List Char :=
  if n < 0 then '-' :: digitsOfNat n.natAbs else digitsOfNat n.natAbs

-- One digit, a point when more follow, and the power of ten.
def Numeral.scientific (n : Numeral) : List Char :=
  let digits := digitsOfNat n.digits
  let power : Int := digits.length - 1 + n.exponent
  digits.take 1 ++ (if digits.length ≤ 1 then [] else '.' :: digits.drop 1) ++ ['e'] ++ intText power

-- The text of a number in a cell: no power of ten at any size, and no sign on zero.
def cellText (x : Float) : String :=
  if x.isNaN then "NaN"
  else if x == 0.0 then "0"
  else
    let sign := if x < 0.0 then ['-'] else []
    if x.isInf then String.ofList (sign ++ ['i', 'n', 'f'])
    else String.ofList (sign ++ (shortest x).positional)

-- The text of a numeral of a formula in messages: a whole number keeps one zero after the
-- point; from `10 ^ 16` up, and below `10 ^ -4`, a power of ten is written.
def formulaText (x : Float) : String :=
  if x == 0.0 then "0.0"
  else if x.isInf then "inf"
  else
    let n := shortest x
    if x ≥ 1e16 || x < 1e-4 then String.ofList n.scientific
    else if 0 ≤ n.exponent then String.ofList (n.positional ++ ['.', '0'])
    else String.ofList n.positional

end Spreadsheet.Decimal
