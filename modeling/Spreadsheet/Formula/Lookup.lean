import Spreadsheet.Formula.Argument

-- Searching ranges. An approximate search takes the order of its range on trust.

set_option autoImplicit false

namespace Spreadsheet.Formula

-- The last entry before the first one on the side `stop` of the value sought. Entries that have
-- no order with it are passed over.
def approximateFrom (sought : Value) (stop : Ordering) (best : Option Address) :
    List (Address × Value) → Option Address
  | [] => best
  | (a, v) :: rest =>
    match v.lookupCompare? sought with
    | none => approximateFrom sought stop best rest
    | some side =>
      if side = stop then best else approximateFrom sought stop (some a) rest

def approximate (sought : Value) (stop : Ordering) (entries : List (Address × Value)) :
    Option Address := approximateFrom sought stop none entries

def exact (sought : Value) (entries : List (Address × Value)) : Option Address :=
  (entries.find? fun (_, v) => v.lookupEq sought).map Prod.fst

-- The number without its fraction. From 2 ^ 52 on no number has one.
def wholePart (n : Float) : Float :=
  if n.abs < 4503599627370496 then
    if n < 0.0 then -(-n).toUInt64.toFloat else n.toUInt64.toFloat
  else n

-- Only `FALSE` and 0 ask for an exact match.
def asksExact : Value → Bool
  | .boolean b => !b
  | .number n => n == 0.0
  | _ => false

-- The entry of the table in the row found and the given column, counted from 1.
def pick (table : RangeValues) (column : Nat) : Option Address → Value
  | none => .error .notAvailable
  | some a => table.get ⟨a.row, table.range.first.col + column - 1⟩

-- The column number of a lookup in a table: at least 1, and not beyond the table.
def columnIndex (table : RangeValues) (v : Value) : Except ErrorKind Nat := do
  let n := wholePart (← v.toNumber)
  if n < 1.0 then throw .value
  if Float.ofNat table.width < n then throw .ref
  return n.toUInt32.toNat

def vlookup (sought table column : Argument) (mode? : Option Argument) : Reading Value := do
  let sought ← sought.value
  match ← table.table with
  | .error e => return .error e
  | .ok table =>
    match columnIndex table (← column.value) with
    | .error e => return .error e
    | .ok column =>
      let keys := table.column table.range.first.col
      match mode? with
      | none => return pick table column (approximate sought .gt keys)
      | some mode =>
        let mode ← mode.value
        match mode.error? with
        | some e => return .error e
        | none =>
          if asksExact mode then return pick table column (exact sought keys)
          else return pick table column (approximate sought .gt keys)

-- A match of type 0 is exact; a positive type searches ascending, another descending values.
def search (sought : Value) (type : Float) (entries : List (Address × Value)) : Option Address :=
  if type == 0.0 then exact sought entries
  else if type > 0.0 then approximate sought .gt entries
  else approximate sought .lt entries

def matchPosition (sought range : Argument) (type? : Option Argument) : Reading Value := do
  let sought ← sought.value
  match ← range.table with
  | .error e => return .error e
  | .ok values =>
    let type ← match type? with
      | none => pure (.ok 1.0)
      | some type => Value.toNumber <$> type.value
    match type with
    | .error e => return .error e
    | .ok type =>
      match (search sought type values.toList).bind values.position? with
      | none => return .error .notAvailable
      | some n => return .number (Float.ofNat n)

end Spreadsheet.Formula
