-- Decimal numerals `digits · 10 ^ exponent` and the floats that they denote.

set_option autoImplicit false

namespace Spreadsheet.Decimal

structure Numeral where
  digits : Nat
  exponent : Int
deriving DecidableEq

def isDigit (c : Char) : Bool := '0' ≤ c && c ≤ '9'

def digitValue (c : Char) : Nat := c.toNat - '0'.toNat

def natOfDigits (cs : List Char) : Nat := cs.foldl (fun n c => 10 * n + digitValue c) 0

def digitsOfNat (n : Nat) : List Char := Nat.toDigits 10 n

-- The numeral written `whole.fraction`, moved by a power of ten.
def Numeral.ofParts (whole fraction : List Char) (power : Int) : Numeral :=
  ⟨natOfDigits (whole ++ fraction), power - fraction.length⟩

def infinity : Float := 1.0 / 0.0

-- The float nearest to the numeral. A numeral outside `10 ^ -400` to `10 ^ 400` is beyond every
-- finite float, or below half of the least positive one, and is decided by its size alone.
def Numeral.toFloat (n : Numeral) : Float :=
  let size : Int := (digitsOfNat n.digits).length + n.exponent
  if n.digits = 0 then 0.0
  else if 400 < size then infinity
  else if size < -400 then 0.0
  else Float.ofScientific n.digits (n.exponent < 0) n.exponent.natAbs

-- A sign and the power of ten after `e` or `E`; nothing unless digits end the text.
def readPower? : List Char → Option Int
  | [] => some 0
  | mark :: rest =>
    if mark = 'e' ∨ mark = 'E' then
      let (negative, digits) :=
        match rest with
        | '+' :: digits => (false, digits)
        | '-' :: digits => (true, digits)
        | digits => (false, digits)
      if digits.isEmpty ∨ !digits.all isDigit then none
      else some (if negative then -(natOfDigits digits : Int) else natOfDigits digits)
    else none

-- An unsigned numeral: digits, a point and digits of which one side may be missing, and perhaps
-- a power of ten.
def readUnsigned? (cs : List Char) : Option Numeral :=
  let whole := cs.takeWhile isDigit
  let rest := cs.dropWhile isDigit
  let (fraction, rest) :=
    match rest with
    | '.' :: more => (more.takeWhile isDigit, more.dropWhile isDigit)
    | _ => ([], rest)
  if whole.isEmpty && fraction.isEmpty then none
  else (readPower? rest).map (Numeral.ofParts whole fraction)

-- The float that a text denotes when the whole of it is a numeral, with a sign or without.
def readFloat? : List Char → Option Float
  | '+' :: cs => (readUnsigned? cs).map Numeral.toFloat
  | '-' :: cs => (readUnsigned? cs).map fun n => -n.toFloat
  | cs => (readUnsigned? cs).map Numeral.toFloat

end Spreadsheet.Decimal
