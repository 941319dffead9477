import Spreadsheet.Decimal.Numeral

-- The shortest numeral of a float: the fewest digits that lie nearer to it than to its
-- neighbours, and of the numerals with that many digits the nearest one.

set_option autoImplicit false

namespace Spreadsheet.Decimal

-- The number `mantissa · 2 ^ exponent`.
structure Binary where
  mantissa : Nat
  exponent : Int
deriving DecidableEq

def magnitude (x : Float) : Binary :=
  let bits : Nat := x.toBits.toNat
  let fraction : Nat := bits % Nat.pow 2 52
  let scale : Nat := bits / Nat.pow 2 52 % Nat.pow 2 11
  if scale = 0 then ⟨fraction, -1074⟩ else ⟨fraction + Nat.pow 2 52, (scale : Int) - 1075⟩

-- A number `center / unit` with the distances to the ends of the interval that reads back as
-- it, in the same unit. The ends belong to the interval when `closed` holds.
structure Window where
  center : Nat
  below : Nat
  above : Nat
  unit : Nat
  closed : Bool

-- Halfway to the neighbours; under a power of two the neighbour below is twice as near.
def Binary.window (b : Binary) : Window :=
  let scale := Nat.pow 2 (b.exponent - 2).toNat
  { center := 4 * b.mantissa * scale
    below := (if b.mantissa = Nat.pow 2 52 then 1 else 2) * scale
    above := 2 * scale
    unit := Nat.pow 2 (2 - b.exponent).toNat
    closed := b.mantissa % 2 == 0 }

-- The window measured in units of `10 ^ place`.
def Window.atPlace (w : Window) (place : Int) : Window :=
  let finer := Nat.pow 10 (-place).toNat
  { center := w.center * finer
    below := w.below * finer
    above := w.above * finer
    unit := w.unit * Nat.pow 10 place.toNat
    closed := w.closed }

def Window.contains (w : Window) (n : Nat) : Bool :=
  if w.closed then w.center ≤ n * w.unit + w.below && n * w.unit ≤ w.center + w.above
  else w.center < n * w.unit + w.below && n * w.unit < w.center + w.above

-- The multiple of the unit inside the window next to its center; halfway goes up.
def Window.nearest? (w : Window) : Option Nat :=
  let low := w.center / w.unit
  match w.contains low, w.contains (low + 1) with
  | true, true => some (if 2 * (w.center % w.unit) < w.unit then low else low + 1)
  | true, false => some low
  | false, true => some (low + 1)
  | false, false => none

-- The least `k` with `center / unit < 10 ^ k`, for a positive center.
def Window.decimalSize (w : Window) : Int :=
  if w.unit ≤ w.center then (digitsOfNat (w.center / w.unit)).length
  else 1 - ((digitsOfNat ((w.unit - 1) / w.center)).length : Int)

-- Without zeros at the end of the digits; `fuel` bounds how many are dropped.
def Numeral.dropZeros : Nat → Numeral → Numeral
  | 0, n => n
  | fuel + 1, n =>
    if n.digits % 10 = 0 then dropZeros fuel ⟨n.digits / 10, n.exponent + 1⟩ else n

-- Seventeen digits always suffice.
def Window.shortest (w : Window) : Numeral :=
  let size := w.decimalSize
  let found := (List.range 17).findSome? fun (i : Nat) =>
    let place : Int := size - (i + 1)
    (w.atPlace place).nearest?.map fun digits => (⟨digits, place⟩ : Numeral)
  (found.getD ⟨0, 0⟩).dropZeros 17

def shortest (x : Float) : Numeral := (magnitude x).window.shortest

end Spreadsheet.Decimal
