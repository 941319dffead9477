import Spreadsheet.Text.Blank
import Spreadsheet.Decimal.Numeral
import Std.Data.ExtTreeMap

-- Cell addresses: a row and a column, both counted from 1, written as column letters and a row
-- number.

set_option autoImplicit false

namespace Spreadsheet

def maxRows : Nat := 1048576
def maxColumns : Nat := 16384

structure Address where
  row : Nat
  col : Nat
deriving DecidableEq

namespace Address

-- Row by row, each row from left to right.
instance : Ord Address := ⟨compareLex (compareOn Address.row) (compareOn Address.col)⟩

instance : Std.TransOrd Address :=
  inferInstanceAs (Std.TransCmp (compareLex (compareOn Address.row) (compareOn Address.col)))

theorem compare_eq_iff (a b : Address) : compare a b = .eq ↔ a = b := by
  have h : compare a b = (compare a.row b.row).then (compare a.col b.col) := rfl
  rw [h, Ordering.then_eq_eq, Nat.compare_eq_eq, Nat.compare_eq_eq]
  cases a; cases b; simp

instance : Std.LawfulEqOrd Address where
  eq_of_compare h := (compare_eq_iff _ _).mp h

-- Inside the limits of a sheet.
def Valid (a : Address) : Prop := 1 ≤ a.row ∧ a.row ≤ maxRows ∧ 1 ≤ a.col ∧ a.col ≤ maxColumns

instance (a : Address) : Decidable a.Valid := by unfold Valid; infer_instance

end Address

inductive AddressError where
  | empty
  | noLetters (text : String)
  | emptyLetters
  | badLetter (letter : Char)
  | columnTooLarge (letters : String)
  | badRow (text : String)
  | rowOutOfBounds (row : Nat)
  | columnOutOfBounds (col : Nat)
deriving DecidableEq

namespace AddressError

def invalid (detail : String) : String := "Invalid cell address: " ++ detail

def bounds (what : String) (n limit : Nat) : String :=
  what ++ " " ++ toString n ++ " out of bounds (valid: 1..=" ++ toString limit ++ ")"

def message : AddressError → String
  | empty => invalid "empty address"
  | noLetters text => invalid ("no column letters in '" ++ text ++ "'")
  | emptyLetters => invalid "empty column letters"
  | badLetter letter => invalid ("invalid column letter '" ++ letter.toString ++ "'")
  | columnTooLarge letters => invalid ("column '" ++ letters ++ "' too large")
  | badRow text => invalid ("invalid row number in '" ++ text ++ "'")
  | rowOutOfBounds row => bounds "Row" row maxRows
  | columnOutOfBounds col => bounds "Column" col maxColumns

end AddressError

def letterValue (c : Char) : Nat := c.toUpper.toNat - 64

-- Letters read as digits 1 to 26 in base 26, after `col` for the letters already read.
def columnFrom (letters : String) : Nat → List Char → Except AddressError Nat
  | col, [] => .ok col
  | col, c :: rest =>
    if !c.isAlpha then .error (.badLetter c)
    else if maxColumns < 26 * col + letterValue c then .error (.columnTooLarge letters)
    else columnFrom letters (26 * col + letterValue c) rest

def columnNumber (letters : String) : Except AddressError Nat :=
  if letters.isEmpty then .error .emptyLetters else columnFrom letters 0 letters.toList

def columnChars (col : Nat) : List Char :=
  if _h : col = 0 then []
  else columnChars ((col - 1) / 26) ++ [Char.ofNat (65 + (col - 1) % 26)]
termination_by col
decreasing_by omega

def columnLetters (col : Nat) : String := String.ofList (columnChars col)

namespace Address

-- An address inside the limits of a sheet; the row is checked first.
def make (row col : Nat) : Except AddressError Address :=
  if row = 0 ∨ maxRows < row then .error (.rowOutOfBounds row)
  else if col = 0 ∨ maxColumns < col then .error (.columnOutOfBounds col)
  else .ok ⟨row, col⟩

def dropMarker : List Char → List Char
  | '$' :: rest => rest
  | cs => cs

-- Reads column letters and a row number, each perhaps after a `$`, between blanks. Row numbers
-- have 32 bits.
def parse (s : String) : Except AddressError Address := do
  let cs := Text.trimChars s.toList
  let text := String.ofList cs
  if cs.isEmpty then throw .empty
  let letters := (dropMarker cs).takeWhile Char.isAlpha
  if letters.isEmpty then throw (.noLetters text)
  let col ← columnNumber (String.ofList letters)
  let digits := dropMarker ((dropMarker cs).dropWhile Char.isAlpha)
  if digits.isEmpty || !digits.all Decimal.isDigit then throw (.badRow text)
  let row := Decimal.natOfDigits digits
  if Nat.pow 2 32 ≤ row then throw (.badRow text)
  make row col

def chars (a : Address) : List Char := columnChars a.col ++ Decimal.digitsOfNat a.row

def text (a : Address) : String := String.ofList a.chars

end Address

end Spreadsheet
