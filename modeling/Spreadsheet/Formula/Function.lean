import Spreadsheet.Formula.Lookup

-- The built-in functions and the numbers of arguments that they take.

set_option autoImplicit false

namespace Spreadsheet.Formula

structure Function where
  name : String
  minArgs : Nat
  maxArgs? : Option Nat
  apply : List Argument → Reading Value

namespace Function

def accepts (f : Function) (count : Nat) : Bool :=
  f.minArgs ≤ count && (match f.maxArgs? with
    | none => true
    | some most => count ≤ most)

def numbers (values : RangeValues) : List Float :=
  values.toList.filterMap fun
    | (_, .number n) => some n
    | _ => none

-- Ranges count their numbers only, each range summed by itself; other arguments count when they
-- can be read as numbers.
def sumFrom (total : Float) : List Argument → Reading Value
  | [] => return .ofFloat total
  | arg :: rest => do
    match ← arg.operand with
    | .range values => sumFrom (total + (numbers values).foldl (· + ·) 0.0) rest
    | .scalar v =>
      match v.asNumber? with
      | some n => sumFrom (total + n) rest
      | none => sumFrom total rest
    | .unresolved => return .error .ref

def joinFrom (text : String) : List Value → Except ErrorKind String
  | [] => .ok text
  | .error e :: _ => .error e
  | v :: rest => joinFrom (text ++ v.toText) rest

-- Texts joined from left to right, those of a range row by row. The first error stops it.
def concatenateFrom (text : String) : List Argument → Reading Value
  | [] => return .text text
  | arg :: rest => do
    match ← arg.operand with
    | .unresolved => return .error .ref
    | .scalar v =>
      match joinFrom text [v] with
      | .error e => return .error e
      | .ok text => concatenateFrom text rest
    | .range values =>
      match joinFrom text (values.toList.map Prod.snd) with
      | .error e => return .error e
      | .ok text => concatenateFrom text rest

-- Evaluates only the branch that the condition selects; a missing branch is `FALSE`.
def choose (condition yes : Argument) (no? : Option Argument) : Reading Value := do
  let condition ← condition.value
  if condition.isError then return condition
  else if condition.truthy then yes.value
  else match no? with
    | some no => no.value
    | none => return .boolean false

-- Evaluates the fallback only in place of an error.
def orElse (value fallback : Argument) : Reading Value := do
  let value ← value.value
  if value.isError then fallback.value else return value

def wrongCount : Reading Value := return .error .value

def sum : Function := ⟨"SUM", 1, none, sumFrom 0.0⟩

def concat : Function := ⟨"CONCAT", 1, none, concatenateFrom ""⟩

def concatenate : Function := ⟨"CONCATENATE", 1, none, concatenateFrom ""⟩

def ifThen : Function := ⟨"IF", 2, some 3, fun
  | [condition, yes] => choose condition yes none
  | [condition, yes, no] => choose condition yes (some no)
  | _ => wrongCount⟩

def ifError : Function := ⟨"IFERROR", 2, some 2, fun
  | [value, fallback] => orElse value fallback
  | _ => wrongCount⟩

def matchFirst : Function := ⟨"MATCH", 2, some 3, fun
  | [sought, range] => matchPosition sought range none
  | [sought, range, type] => matchPosition sought range (some type)
  | _ => wrongCount⟩

def verticalLookup : Function := ⟨"VLOOKUP", 3, some 4, fun
  | [sought, table, column] => vlookup sought table column none
  | [sought, table, column, mode] => vlookup sought table column (some mode)
  | _ => wrongCount⟩

def all : List Function :=
  [concat, concatenate, ifThen, ifError, matchFirst, sum, verticalLookup]

def named? (name : String) : Option Function := all.find? (·.name == Text.upper name)

-- An unknown function is `#ERROR!`, a known one with a wrong number of arguments `#VALUE!`.
def call (name : String) (args : List Argument) : Reading Value :=
  match named? name with
  | none => return .error .formulaSyntax
  | some f => if f.accepts args.length then f.apply args else wrongCount

end Function

end Spreadsheet.Formula
