import Spreadsheet.Store.Basic

-- A store in memory. It can be switched off, after which every call of a store fails and
-- changes nothing.

set_option autoImplicit false

namespace Spreadsheet

structure Memory where
  sheets : List SheetInfo
  cells : KeyMap Cell
  available : Bool

namespace Memory

def empty : Memory := ⟨[], ∅, true⟩

-- Registers a sheet under the next free number, counted from 1.
def addSheet (m : Memory) (workbook : WorkbookId) (name : String) : SheetId × Memory :=
  let id : SheetId := ⟨m.sheets.length + 1⟩
  (id, { m with sheets := m.sheets ++ [⟨id, workbook, name⟩] })

def put (m : Memory) (k : Key) (c : Cell) : Memory := { m with cells := m.cells.insert k c }

def remove (m : Memory) (k : Key) : Memory := { m with cells := m.cells.erase k }

-- Stores records as they are, whether the store is available or not.
def load (m : Memory) (records : List Record) : Memory :=
  records.foldl (fun m r => m.put r.key r.cell) m

def setAvailable (m : Memory) (available : Bool) : Memory := { m with available }

-- The value at a key, whether the store is available or not.
def value (m : Memory) (k : Key) : Value := (m.cells[k]?.map Cell.value).getD .empty

def records (m : Memory) : List Record := m.cells.toList.map fun (k, c) => ⟨k, c⟩

def cellCount (m : Memory) (sheet : SheetId) : Nat :=
  (m.records.filter (·.key.sheet = sheet)).length

def recordAt (m : Memory) (k : Key) : Option Record := m.cells[k]?.map (⟨k, ·⟩)

-- The records from one key to another, in the order of their keys.
def recordsBetween (m : Memory) (first last : Key) : List Record :=
  m.records.filter fun r => (compare first r.key).isLE && (compare r.key last).isLE

-- The records of a range among those between its corners.
def recordsIn (m : Memory) (r : SheetRange) : List Record :=
  (m.recordsBetween ⟨r.sheet, r.range.first⟩ ⟨r.sheet, r.range.last⟩).filter (r.contains ·.key)

def formulasOn (m : Memory) (sheet : SheetId) : List Record :=
  m.records.filter fun r => r.key.sheet = sheet && r.cell.isFormula

-- The first registered sheet of the workbook with that name, up to ASCII letter case.
def sheetNamed (m : Memory) (workbook : WorkbookId) (name : String) : Option SheetId :=
  (m.sheets.find? fun s => s.workbook = workbook && Text.asciiSame s.name name).map SheetInfo.id

def sheet (m : Memory) (id : SheetId) : Option SheetInfo := m.sheets.find? (·.id = id)

def writeValue (m : Memory) (k : Key) (v : Value) : Memory :=
  if v.isEmpty then m.remove k else m.put k (.literal v)

def switchedOff : StoreError := .unavailable "memory store switched off"

def reading {α : Type} (f : Memory → α) : Attempt Memory α := do
  let m ← get
  if m.available then return f m else throw switchedOff

def writing (f : Memory → Memory) : Attempt Memory Unit := do
  let m ← get
  if m.available then set (f m) else throw switchedOff

instance : CellStore Memory where
  cell k := reading (·.recordAt k)
  range r := reading (·.recordsIn r)
  putValue k v := writing (·.writeValue k v)
  putFormula k f := writing (·.put k (.formula f))
  sheetNamed workbook name := reading (·.sheetNamed workbook name)
  sheet id := reading (·.sheet id)
  formulaCells sheet := reading (·.formulasOn sheet)

end Memory

end Spreadsheet
