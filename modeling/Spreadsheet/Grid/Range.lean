import Spreadsheet.Grid.Address

-- Rectangles of cells, given by two corners, and their cells row by row.

set_option autoImplicit false

namespace Spreadsheet

structure Range where
  first : Address
  last : Address
deriving DecidableEq

inductive RangeError where
  | address (error : AddressError)
  | side (text : String) (error : AddressError)
deriving DecidableEq

def RangeError.message : RangeError → String
  | .address error => error.message
  | .side text error => "Invalid cell range: '" ++ text ++ "': " ++ error.message

namespace Range

-- The first corner is at the top left of the last one.
def Normal (r : Range) : Prop := r.first.row ≤ r.last.row ∧ r.first.col ≤ r.last.col

instance (r : Range) : Decidable r.Normal := by unfold Normal; infer_instance

def between (a b : Address) : Range :=
  { first := ⟨min a.row b.row, min a.col b.col⟩
    last := ⟨max a.row b.row, max a.col b.col⟩ }

theorem between_normal (a b : Address) : (between a b).Normal := by
  simp only [Normal, between]
  omega

theorem between_of_normal (r : Range) (normal : r.Normal) : between r.first r.last = r := by
  obtain ⟨rows, columns⟩ := normal
  simp [between, rows, columns]

def single (a : Address) : Range := ⟨a, a⟩

def isSingle (r : Range) : Bool := r.first = r.last

def contains (r : Range) (a : Address) : Bool :=
  r.first.row ≤ a.row && a.row ≤ r.last.row && r.first.col ≤ a.col && a.col ≤ r.last.col

def rows (r : Range) : Nat := r.last.row - r.first.row + 1

def columns (r : Range) : Nat := r.last.col - r.first.col + 1

def size (r : Range) : Nat := r.rows * r.columns

def overlaps (r s : Range) : Bool :=
  r.first.row ≤ s.last.row && s.first.row ≤ r.last.row &&
    r.first.col ≤ s.last.col && s.first.col ≤ r.last.col

-- How many cells of the range come before the address, when it lies inside.
def index? (r : Range) (a : Address) : Option Nat :=
  if r.contains a then some ((a.row - r.first.row) * r.columns + (a.col - r.first.col)) else none

-- Two addresses joined by a colon, or one address alone.
def parse (s : String) : Except RangeError Range :=
  let cs := Text.trimChars s.toList
  let text := String.ofList cs
  match cs.dropWhile (· ≠ ':') with
  | [] => (Address.parse text).map single |>.mapError .address
  | _ :: after => do
    let first ← (Address.parse (String.ofList (cs.takeWhile (· ≠ ':')))).mapError (.side text)
    let last ← (Address.parse (String.ofList after)).mapError (.side text)
    return between first last

-- The range in A1 notation; one cell is written as its address.
def text (r : Range) : String :=
  if r.isSingle then r.first.text else r.first.text ++ ":" ++ r.last.text

-- A walk over the cells of a range, with the number of cells still to come.
structure Cursor where
  range : Range
  next? : Option Address
  remaining : Nat

def cursor (r : Range) : Cursor := ⟨r, some r.first, r.size⟩

def after? (r : Range) (a : Address) : Option Address :=
  if a.col < r.last.col then some ⟨a.row, a.col + 1⟩
  else if a.row < r.last.row then some ⟨a.row + 1, r.first.col⟩
  else none

def Cursor.advance? (c : Cursor) : Option (Address × Cursor) :=
  c.next?.map fun a => (a, { c with next? := c.range.after? a, remaining := c.remaining - 1 })

def Cursor.take : Nat → Cursor → List Address × Cursor
  | 0, c => ([], c)
  | n + 1, c =>
    match c.advance? with
    | none => ([], c)
    | some (a, rest) =>
      let (cells, final) := take n rest
      (a :: cells, final)

def cells (r : Range) : List Address := (r.cursor.take r.size).1

end Range

end Spreadsheet
