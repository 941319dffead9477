import Spreadsheet.Formula.Entries
import Spreadsheet.Value.Order

-- The values of a range: a partial map from its addresses, without empty values.

set_option autoImplicit false

namespace Spreadsheet.Formula

structure RangeValues where
  range : Range
  entries : Array (Address × Value)
  ascending : Entries.Ascending entries.toList

namespace RangeValues

-- Empty values and cells outside the range are dropped; the first value for an address stays.
def ofList (range : Range) (cells : List (Address × Value)) : RangeValues :=
  let kept := cells.filter fun (a, v) => range.contains a && !v.isEmpty
  { range
    entries := (Entries.firsts (Entries.sort kept)).toArray
    ascending := Entries.firsts_ascending _ (Entries.sort_in_order kept) }

def width (t : RangeValues) : Nat := t.range.columns

def get (t : RangeValues) (a : Address) : Value :=
  ((Entries.find? t.entries a).map Prod.snd).getD .empty

def toList (t : RangeValues) : List (Address × Value) := t.entries.toList

-- The values of one column of the sheet, from top to bottom.
def column (t : RangeValues) (col : Nat) : List (Address × Value) :=
  t.toList.filter (·.1.col = col)

-- The place of an address in the range, row by row and counted from 1.
def position? (t : RangeValues) (a : Address) : Option Nat := (t.range.index? a).map (· + 1)

end RangeValues

end Spreadsheet.Formula
