import Spreadsheet.Grid.Range
import Std.Data.ExtTreeSet

-- Cells and ranges of one sheet among many.

set_option autoImplicit false

namespace Spreadsheet

structure SheetId where
  number : Nat
deriving DecidableEq

structure WorkbookId where
  number : Nat
deriving DecidableEq

instance : Ord SheetId := ⟨compareOn SheetId.number⟩

instance : Std.TransOrd SheetId := inferInstanceAs (Std.TransCmp (compareOn SheetId.number))

theorem SheetId.compare_eq_iff (a b : SheetId) : compare a b = .eq ↔ a = b := by
  have h : compare a b = compare a.number b.number := rfl
  rw [h, Nat.compare_eq_eq]
  cases a; cases b; simp

instance : Std.LawfulEqOrd SheetId where
  eq_of_compare h := (SheetId.compare_eq_iff _ _).mp h

structure Key where
  sheet : SheetId
  addr : Address
deriving DecidableEq

namespace Key

-- By sheet, then row by row.
instance : Ord Key := ⟨compareLex (compareOn Key.sheet) (compareOn Key.addr)⟩

instance : Std.TransOrd Key :=
  inferInstanceAs (Std.TransCmp (compareLex (compareOn Key.sheet) (compareOn Key.addr)))

theorem compare_eq_iff (a b : Key) : compare a b = .eq ↔ a = b := by
  have h : compare a b = (compare a.sheet b.sheet).then (compare a.addr b.addr) := rfl
  rw [h, Ordering.then_eq_eq, SheetId.compare_eq_iff, Address.compare_eq_iff]
  cases a; cases b; simp

instance : Std.LawfulEqOrd Key where
  eq_of_compare h := (compare_eq_iff _ _).mp h

-- What orders cells, from the first to the last to count.
def place (k : Key) : List Nat := [k.sheet.number, k.addr.row, k.addr.col]

theorem compare_lt_iff (a b : Key) : compare a b = .lt ↔ a.place < b.place := by
  have h : compare a b = (compare a.sheet.number b.sheet.number).then
    ((compare a.addr.row b.addr.row).then (compare a.addr.col b.addr.col)) := rfl
  simp only [h, Ordering.then_eq_lt, Nat.compare_eq_lt, Nat.compare_eq_eq, place,
    List.cons_lt_cons_iff, List.not_lt_nil, and_false, or_false]

def text (k : Key) : String := toString k.sheet.number ++ "!" ++ k.addr.text

end Key

abbrev KeyMap (β : Type) := Std.ExtTreeMap Key β

abbrev KeySet := Std.ExtTreeSet Key

abbrev SheetSet := Std.ExtTreeSet SheetId

structure SheetRange where
  sheet : SheetId
  range : Range
deriving DecidableEq

namespace SheetRange

def ofKey (k : Key) : SheetRange := ⟨k.sheet, .single k.addr⟩

def contains (r : SheetRange) (k : Key) : Bool := k.sheet = r.sheet && r.range.contains k.addr

def keys (r : SheetRange) : List Key := r.range.cells.map (⟨r.sheet, ·⟩)

def text (r : SheetRange) : String := toString r.sheet.number ++ "!" ++ r.range.text

end SheetRange

end Spreadsheet
