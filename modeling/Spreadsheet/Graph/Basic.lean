import Spreadsheet.Grid.Key
import Spreadsheet.Grid.Distinct

-- Which formula reads which ranges, kept in both directions: from a formula to the ranges that
-- it reads, and from a cell to the formulas that read it. A range of many cells is one entry.

set_option autoImplicit false

namespace Spreadsheet

structure Graph where
  precedents : KeyMap (List SheetRange)
  -- The formulas that read a cell by a range of this cell alone.
  cellReaders : KeyMap KeySet
  -- By sheet, the ranges of several cells with the formula that reads each.
  rangeReaders : Std.ExtTreeMap SheetId (List (Range × Key))
  -- By sheet, the addresses of the formulas.
  addresses : Std.ExtTreeMap SheetId (Std.ExtTreeSet Address)

namespace Graph

def empty : Graph := ⟨∅, ∅, ∅, ∅⟩

def isFormula (g : Graph) (k : Key) : Bool := k ∈ g.precedents

def formulaCount (g : Graph) : Nat := g.precedents.size

def formulas (g : Graph) : List Key := g.precedents.keys

def addressesOn (g : Graph) (sheet : SheetId) : Std.ExtTreeSet Address :=
  g.addresses[sheet]?.getD ∅

-- The formulas of a sheet, row by row.
def formulasOn (g : Graph) (sheet : SheetId) : List Key :=
  (g.addressesOn sheet).toList.map (⟨sheet, ·⟩)

-- The ranges that a formula reads, each once, in the order of its text.
def precedentsOf (g : Graph) (k : Key) : List SheetRange := g.precedents[k]?.getD []

def reads (g : Graph) (formula k : Key) : Bool := (g.precedentsOf formula).any (·.contains k)

def readersOf (g : Graph) (k : Key) : KeySet := g.cellReaders[k]?.getD ∅

def rangeReadersOn (g : Graph) (sheet : SheetId) : List (Range × Key) :=
  g.rangeReaders[sheet]?.getD []

-- The formulas that read a cell, in the order of their keys.
def dependents (g : Graph) (k : Key) : List Key :=
  let through := (g.rangeReadersOn k.sheet).filter fun (range, _) => range.contains k.addr
  (through.foldl (fun found (_, formula) => found.insert formula) (g.readersOf k)).toList

def link (g : Graph) (formula : Key) (r : SheetRange) : Graph :=
  if r.range.isSingle then
    let k : Key := ⟨r.sheet, r.range.first⟩
    { g with cellReaders := g.cellReaders.insert k ((g.readersOf k).insert formula) }
  else
    let entries := g.rangeReadersOn r.sheet ++ [(r.range, formula)]
    { g with rangeReaders := g.rangeReaders.insert r.sheet entries }

def unlink (g : Graph) (formula : Key) (r : SheetRange) : Graph :=
  if r.range.isSingle then
    let k : Key := ⟨r.sheet, r.range.first⟩
    let readers := (g.readersOf k).erase formula
    { g with
      cellReaders := if readers.isEmpty then g.cellReaders.erase k
        else g.cellReaders.insert k readers }
  else
    let entries := (g.rangeReadersOn r.sheet).filter (· ≠ (r.range, formula))
    { g with rangeReaders := g.rangeReaders.insert r.sheet entries }

-- Registers a formula with what it reads. Only what changed is unlinked and linked.
def setFormula (g : Graph) (formula : Key) (references : List SheetRange) : Graph :=
  let new := distinct references
  let old := g.precedentsOf formula
  let g := (old.filter (· ∉ new)).foldl (·.unlink formula ·) g
  let g := (new.filter (· ∉ old)).foldl (·.link formula ·) g
  { g with
    precedents := g.precedents.insert formula new
    addresses := g.addresses.insert formula.sheet
      ((g.addressesOn formula.sheet).insert formula.addr) }

-- A cell that is no registered formula is left alone.
def removeFormula (g : Graph) (formula : Key) : Graph :=
  match g.precedents[formula]? with
  | none => g
  | some old =>
    let g := old.foldl (·.unlink formula ·) g
    { g with
      precedents := g.precedents.erase formula
      addresses := g.addresses.insert formula.sheet
        ((g.addressesOn formula.sheet).erase formula.addr) }

end Graph

end Spreadsheet
