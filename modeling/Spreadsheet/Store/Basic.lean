import Spreadsheet.Store.Cell

-- What a store of cells offers. Every call may fail, and the store decides what a failed call
-- leaves behind.

set_option autoImplicit false

namespace Spreadsheet

inductive StoreError where
  | unavailable (reason : String)
deriving DecidableEq

def StoreError.message : StoreError → String
  | unavailable reason => "Cell store unavailable: " ++ reason

structure SheetInfo where
  id : SheetId
  workbook : WorkbookId
  name : String
deriving DecidableEq

-- A computation on a state that may fail; the state outlives the failure.
abbrev Attempt (σ α : Type) : Type := ExceptT StoreError (StateM σ) α

def Attempt.within {σ τ α : Type} (get : τ → σ) (set : σ → τ → τ) (act : Attempt σ α) :
    Attempt τ α :=
  ExceptT.mk fun t =>
    let (result, s) := act.run.run (get t)
    (result, set s t)

class CellStore (σ : Type) where
  cell : Key → Attempt σ (Option Record)
  range : SheetRange → Attempt σ (List Record)
  -- Stores a typed value; an empty one removes what is stored.
  putValue : Key → Value → Attempt σ Unit
  putFormula : Key → FormulaCell → Attempt σ Unit
  sheetNamed : WorkbookId → String → Attempt σ (Option SheetId)
  sheet : SheetId → Attempt σ (Option SheetInfo)
  formulaCells : SheetId → Attempt σ (List Record)

end Spreadsheet
