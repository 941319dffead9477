import Spreadsheet.Formula.Reading

-- Fixed contents that answer the questions of readings: a finite map of cells and a list of
-- sheets.

set_option autoImplicit false

namespace Spreadsheet.Formula

structure Contents where
  cells : KeyMap Value
  sheets : Std.ExtTreeMap String SheetId

namespace Contents

def empty : Contents := ⟨∅, ∅⟩

def set (c : Contents) (k : Key) (v : Value) : Contents := { c with cells := c.cells.insert k v }

-- Letter case does not tell sheet names apart.
def withSheet (c : Contents) (name : String) (id : SheetId) : Contents :=
  { c with sheets := c.sheets.insert (Text.upper name) id }

def value (c : Contents) (k : Key) : Value := c.cells[k]?.getD .empty

def rangeValues (c : Contents) (r : SheetRange) : RangeValues :=
  .ofList r.range ((c.cells.toList.filter (r.contains ·.1)).map fun (k, v) => (k.addr, v))

def sheet? (c : Contents) (name : String) : Option SheetId := c.sheets[Text.upper name]?

def answer (c : Contents) : (q : Query) → q.Answer
  | .cell k => c.value k
  | .range r => c.rangeValues r
  | .sheet _ name => c.sheet? name

end Contents

end Spreadsheet.Formula
