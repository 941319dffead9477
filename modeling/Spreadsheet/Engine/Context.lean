import Spreadsheet.Formula.Compiled
import Spreadsheet.Formula.Path
import Spreadsheet.Store.Basic

-- Evaluation of a set of formulas for one request. Formulas that others read are evaluated on
-- demand, every result is kept, and cells found on a circular chain of reads are marked.
-- Formulas marked beforehand are circular without being evaluated.

set_option autoImplicit false

namespace Spreadsheet

open Formula

-- Most formulas under evaluation at one time; a read beyond them counts as circular.
def maxNesting : Nat := 128

structure Context (σ : Type) where
  store : σ
  formulas : KeyMap Compiled
  -- Formulas whose evaluation has not begun.
  pending : KeySet
  cache : KeyMap Value
  cyclic : KeySet
  -- Sheet names already looked up, by the sheet that they were read on.
  sheets : List ((SheetId × String) × Option SheetId)

namespace Context

variable {σ : Type}

def ofFormulas (store : σ) (formulas : KeyMap Compiled) : Context σ :=
  { store, formulas, pending := .ofList formulas.keys, cache := ∅, cyclic := ∅, sheets := [] }

def markCyclic (c : Context σ) (cells : List Key) : Context σ :=
  { c with cyclic := cells.foldl (·.insert ·) c.cyclic }

def isCyclic (c : Context σ) (k : Key) : Bool := k ∈ c.cyclic

def cyclicCells (c : Context σ) : List Key := c.cyclic.toList

def remember (c : Context σ) (k : Key) (v : Value) : Context σ :=
  { c with cache := c.cache.insert k v }

-- Whether the context, and not the store, knows the value of a cell.
def isLive (c : Context σ) (path : Path) (k : Key) : Bool :=
  k ∈ c.cache || k ∈ c.pending || path.contains k

def circular : Value := .error .circularReference

def calling {α : Type} (act : Attempt σ α) : Attempt (Context σ) α :=
  act.within Context.store fun store c => { c with store }

variable [CellStore σ]

def storedValue (k : Key) : Attempt (Context σ) Value := do
  return ((← calling (CellStore.cell k)).map Record.value).getD .empty

-- The sheet with a name in the workbook of the sheet `home`, asked of the store once.
def sheetNamed (home : SheetId) (name : String) : Attempt (Context σ) (Option SheetId) := do
  let entry := (home, Text.upper name)
  match (← get).sheets.lookup entry with
  | some found? => return found?
  | none =>
    let found? ← match ← calling (CellStore.sheet home) with
      | some info => calling (CellStore.sheetNamed info.workbook name)
      | none => pure none
    modify fun c => { c with sheets := (entry, found?) :: c.sheets }
    return found?

-- The values of a range. `cell` gives those that the context knows.
def rangeWith (cell : Key → Attempt (Context σ) Value) (path : Path) (r : SheetRange) :
    Attempt (Context σ) RangeValues := do
  let records ← calling (CellStore.range r)
  let values ← records.mapM fun record => do
    if (← get).isLive path record.key then return (record.key.addr, ← cell record.key)
    else return (record.key.addr, record.value)
  return .ofList r.range values

-- Answers to the questions of a formula that is the innermost one on the path.
def answerWith (cell : Key → Attempt (Context σ) Value) (path : Path) :
    (q : Query) → Attempt (Context σ) q.Answer
  | .cell k => cell k
  | .range r => rangeWith cell path r
  | .sheet home name => sheetNamed home name

-- Evaluates a pending formula, with `cell` for the cells that it reads.
def computeWith (cell : Path → Key → Attempt (Context σ) Value) (path : Path) (k : Key) :
    Attempt (Context σ) Value := do
  modify fun c => { c with pending := c.pending.erase k }
  if (← get).isCyclic k then
    modify (·.remember k circular)
    return circular
  else match (← get).formulas[k]? with
    | none => storedValue k
    | some formula =>
      let inner := path.push k
      let v ← (formula.evaluate k.sheet).run (answerWith (cell inner) inner)
      let v := if (← get).isCyclic k then circular else v
      modify (·.remember k v)
      return v

-- A kept result; a mark on the chain that leads back to the cell; a pending formula as
-- `compute` evaluates it; or what is stored.
def lookupWith (compute : Path → Key → Attempt (Context σ) Value) (path : Path) (k : Key) :
    Attempt (Context σ) Value := do
  let c ← get
  match c.cache[k]? with
  | some v => return v
  | none =>
    if path.contains k then
      set (c.markCyclic (path.backTo k))
      return circular
    else if k ∈ c.pending then compute path k
    else storedValue k

-- The value of a cell where `room` more formulas may come under evaluation.
def cellAt : Nat → Path → Key → Attempt (Context σ) Value
  | 0 => lookupWith fun _ _ => return circular
  | room + 1 => lookupWith (computeWith (cellAt room))

-- The value of a cell that the innermost formula of the path reads.
def cellValue (path : Path) (k : Key) : Attempt (Context σ) Value :=
  cellAt (maxNesting - path.depth) path k

def rangeValues (path : Path) (r : SheetRange) : Attempt (Context σ) RangeValues :=
  rangeWith (cellValue path) path r

def evaluate (k : Key) : Attempt (Context σ) Value := cellValue .root k

end Context

end Spreadsheet
