import Spreadsheet.Grid.Key

-- Exclusive locks on sheets. A claim takes all of its sheets at once, so no two claims wait for
-- each other.

set_option autoImplicit false

namespace Spreadsheet

structure Guard where
  sheets : SheetSet

def SheetSet.union (s t : SheetSet) : SheetSet := t.toList.foldl (·.insert ·) s

def SheetSet.difference (s t : SheetSet) : SheetSet := t.toList.foldl (·.erase ·) s

def Guard.covers (g : Guard) (sheets : SheetSet) : Bool := sheets.toList.all (· ∈ g.sheets)

structure Locks where
  held : SheetSet

namespace Locks

def none : Locks := ⟨∅⟩

def isLocked (l : Locks) (sheet : SheetId) : Bool := sheet ∈ l.held

-- A claim waits while another holder has one of its sheets.
def blocks (l : Locks) (sheets : SheetSet) : Bool := sheets.toList.any l.isLocked

def acquire (l : Locks) (sheets : SheetSet) : Guard × Locks := (⟨sheets⟩, ⟨l.held.union sheets⟩)

def release (l : Locks) (g : Guard) : Locks := ⟨l.held.difference g.sheets⟩

end Locks

end Spreadsheet
