import Spreadsheet.Grid.Key
import Spreadsheet.Value.Basic

-- What a stored cell holds: a typed value, or a formula with its last result.

set_option autoImplicit false

namespace Spreadsheet

structure FormulaCell where
  source : String
  result : Value
  error? : Option ErrorKind
  references : List SheetRange

namespace FormulaCell

def uncomputed (source : String) : FormulaCell := ⟨source, .empty, none, []⟩

def withResult (f : FormulaCell) (result : Value) : FormulaCell :=
  { f with result, error? := result.error? }

def withReferences (f : FormulaCell) (references : List SheetRange) : FormulaCell :=
  { f with references }

end FormulaCell

inductive Cell where
  | literal (v : Value)
  | formula (f : FormulaCell)

namespace Cell

def value : Cell → Value
  | literal v => v
  | formula f => f.result

def source? : Cell → Option String
  | literal _ => none
  | formula f => some f.source

def isFormula (c : Cell) : Bool := c.source?.isSome

def type : Cell → ValueType
  | literal v => v.type
  | formula _ => .formula

end Cell

structure Record where
  key : Key
  cell : Cell

def Record.value (r : Record) : Value := r.cell.value

end Spreadsheet
