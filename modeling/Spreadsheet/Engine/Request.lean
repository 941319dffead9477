import Spreadsheet.Formula.Names
import Spreadsheet.Value.Order
import Spreadsheet.Grid.Key

-- What is asked of an engine, and what it answers.

set_option autoImplicit false

namespace Spreadsheet

structure Options where
  -- How long a request may run, in milliseconds.
  timeout? : Option Nat
  names : Formula.Names

-- New content for a cell. An empty value clears the cell.
inductive Input where
  | value (v : Value)
  | formula (source : String)

-- Text that begins with an equals sign is a formula.
def Input.ofTyped (text : String) : Input :=
  match text.toList with
  | '=' :: _ => .formula text
  | _ => .value (.ofTyped text)

def Input.isFormula : Input → Bool
  | value _ => false
  | formula _ => true

structure Outcome where
  key : Key
  value : Value
  -- The value as it is shown.
  text : String
  error? : Option ErrorKind

def Outcome.of (key : Key) (value : Value) : Outcome := ⟨key, value, value.toText, value.error?⟩

structure Report where
  -- The evaluated formulas, in the order of evaluation.
  outcomes : List Outcome
  notEvaluated : List Key
  timedOut : Bool

namespace Report

def keys (r : Report) : List Key := r.outcomes.map Outcome.key

def errorCount (r : Report) : Nat := (r.outcomes.filter (·.error?.isSome)).length

def isComplete (r : Report) : Bool := !r.timedOut

end Report

structure Inspection where
  key : Key
  precedents : List SheetRange
  dependents : List Key
  -- What an edit of the cell recalculates, in order.
  order : List Key
  cycle? : Option (List Key)

end Spreadsheet
