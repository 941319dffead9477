import Spreadsheet.Store.Memory

-- A memory store some of whose calls fail without effect, in any pattern: a fault may depend on
-- the call and on how many calls came before it.

set_option autoImplicit false

namespace Spreadsheet

inductive StoreCall where
  | cell (k : Key)
  | range (r : SheetRange)
  | putValue (k : Key)
  | putFormula (k : Key)
  | sheetNamed (workbook : WorkbookId) (name : String)
  | sheet (id : SheetId)
  | formulaCells (sheet : SheetId)
deriving DecidableEq

structure Faulty where
  memory : Memory
  calls : Nat
  fault : Nat → StoreCall → Option StoreError

namespace Faulty

def reliable (memory : Memory) : Faulty := ⟨memory, 0, fun _ _ => none⟩

def guarded {α : Type} (call : StoreCall) (act : Attempt Memory α) : Attempt Faulty α := do
  let s ← get
  set { s with calls := s.calls + 1 }
  match s.fault s.calls call with
  | some e => throw e
  | none => act.within Faulty.memory fun memory s => { s with memory }

instance : CellStore Faulty where
  cell k := guarded (.cell k) (CellStore.cell k)
  range r := guarded (.range r) (CellStore.range r)
  putValue k v := guarded (.putValue k) (CellStore.putValue k v)
  putFormula k f := guarded (.putFormula k) (CellStore.putFormula k f)
  sheetNamed workbook name :=
    guarded (.sheetNamed workbook name) (CellStore.sheetNamed workbook name)
  sheet id := guarded (.sheet id) (CellStore.sheet id)
  formulaCells sheet := guarded (.formulaCells sheet) (CellStore.formulaCells sheet)

end Faulty

end Spreadsheet
