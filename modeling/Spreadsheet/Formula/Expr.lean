import Spreadsheet.Value.Basic
import Spreadsheet.Grid.Key
import Spreadsheet.Grid.Distinct

-- Formula expressions and the references that they hold.

set_option autoImplicit false

namespace Spreadsheet.Formula

inductive Target where
  | cell (a : Address)
  | range (r : Range)
deriving DecidableEq

-- A reference as written; without a sheet name it points to the sheet of its formula.
structure Reference where
  sheet? : Option String
  target : Target
deriving DecidableEq

def Target.extent : Target → Range
  | cell a => .single a
  | range r => r

def Reference.on (r : Reference) (sheet : SheetId) : SheetRange := ⟨sheet, r.target.extent⟩

inductive BinaryOp where
  | add
  | subtract
  | multiply
  | divide
  | equal
  | notEqual
  | less
  | lessEqual
  | greater
  | greaterEqual
  | concat
deriving DecidableEq

inductive Expr where
  | number (n : Float)
  | text (s : String)
  | boolean (b : Bool)
  | error (e : ErrorKind)
  | reference (r : Reference)
  | name (s : String)
  | negate (operand : Expr)
  | binary (op : BinaryOp) (left right : Expr)
  | call (function : String) (args : List Expr)

def customKind : String := "CUSTOM"

namespace Expr

def kind : Expr → String
  | call function _ => function
  | _ => customKind

def isLiteral : Expr → Bool
  | number _ => true
  | text _ => true
  | boolean _ => true
  | error _ => true
  | _ => false

mutual

-- References from left to right, those of branches that may never run included.
def occurrences : Expr → List Reference
  | reference r => [r]
  | negate operand => operand.occurrences
  | binary _ left right => left.occurrences ++ right.occurrences
  | call _ args => occurrencesIn args
  | number _ => []
  | text _ => []
  | boolean _ => []
  | error _ => []
  | name _ => []

def occurrencesIn : List Expr → List Reference
  | [] => []
  | e :: rest => e.occurrences ++ occurrencesIn rest

end

end Expr

def Expr.references (e : Expr) : List Reference := distinct e.occurrences

end Spreadsheet.Formula
