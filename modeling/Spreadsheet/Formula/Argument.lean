import Spreadsheet.Formula.Expr
import Spreadsheet.Formula.Reading

-- Arguments of functions. A function decides which of its arguments are evaluated, and whether
-- a range is taken whole or must be one value.

set_option autoImplicit false

namespace Spreadsheet.Formula

def sheetOf (home : SheetId) : Option String → Reading (Option SheetId)
  | none => return some home
  | some name => .query (.sheet home name)

-- The value of a reference where one value is needed.
def Reference.value (home : SheetId) (r : Reference) : Reading Value := do
  match ← sheetOf home r.sheet? with
  | none => return .error .ref
  | some sheet =>
    match r.target with
    | .cell a => .query (.cell ⟨sheet, a⟩)
    | .range range =>
      if range.isSingle then .query (.cell ⟨sheet, range.first⟩) else return .error .value

-- What a function sees that takes values and ranges alike.
inductive Operand where
  | scalar (v : Value)
  | range (values : RangeValues)
  -- A reference to a sheet that does not exist.
  | unresolved

def Reference.operand (home : SheetId) (r : Reference) : Reading Operand := do
  match ← sheetOf home r.sheet? with
  | none => return .unresolved
  | some sheet =>
    match r.target with
    | .cell a => return .scalar (← Reading.query (.cell ⟨sheet, a⟩))
    | .range range => return .range (← Reading.query (.range ⟨sheet, range⟩))

def Reference.table (home : SheetId) (r : Reference) : Reading (Except ErrorKind RangeValues) := do
  match ← sheetOf home r.sheet? with
  | none => return .error .ref
  | some sheet => return .ok (← Reading.query (.range (r.on sheet)))

inductive Argument where
  | reference (home : SheetId) (r : Reference)
  | computed (value : Unit → Reading Value)

namespace Argument

def value : Argument → Reading Value
  | reference home r => r.value home
  | computed v => v ()

def operand : Argument → Reading Operand
  | reference home r => r.operand home
  | computed v => return .scalar (← v ())

-- Only references are ranges; any other argument gives its error, or `#VALUE!`.
def table : Argument → Reading (Except ErrorKind RangeValues)
  | reference home r => r.table home
  | computed v => return .error ((← v ()).error?.getD .value)

end Argument

end Spreadsheet.Formula
