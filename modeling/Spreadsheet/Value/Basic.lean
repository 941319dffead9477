import Spreadsheet.Text.Case
import Spreadsheet.Decimal.Layout

-- Cell values, spreadsheet errors, and the coercions between kinds of value.

set_option autoImplicit false

namespace Spreadsheet

inductive ErrorKind where
  | formulaSyntax
  | ref
  | notAvailable
  | value
  | divideByZero
  | circularReference
deriving DecidableEq

namespace ErrorKind

def text : ErrorKind → String
  | formulaSyntax => "#ERROR!"
  | ref => "#REF!"
  | notAvailable => "#N/A"
  | value => "#VALUE!"
  | divideByZero => "#DIV/0!"
  | circularReference => "#CIRCULAR!"

def all : List ErrorKind :=
  [formulaSyntax, ref, notAvailable, value, divideByZero, circularReference]

theorem mem_all (e : ErrorKind) : e ∈ all := by cases e <;> decide

-- The error that a text spells, in any letter case.
def ofText? (s : String) : Option ErrorKind := all.find? fun e => e.text == Text.upper s

end ErrorKind

inductive Value where
  | number (n : Float)
  | text (s : String)
  | boolean (b : Bool)
  | empty
  | error (e : ErrorKind)
deriving DecidableEq

instance : Inhabited Value := ⟨.empty⟩

inductive ValueType where
  | null
  | boolean
  | number
  | string
  | error
  | formula
deriving DecidableEq

def ValueType.text : ValueType → String
  | null => "null"
  | boolean => "boolean"
  | number => "number"
  | string => "string"
  | error => "error"
  | formula => "formula"

namespace Value

def isEmpty : Value → Bool
  | empty => true
  | _ => false

def error? : Value → Option ErrorKind
  | error e => some e
  | _ => none

def isError (v : Value) : Bool := v.error?.isSome

def type : Value → ValueType
  | empty => .null
  | boolean _ => .boolean
  | number _ => .number
  | text _ => .string
  | error _ => .error

-- Booleans count as 1 and 0, nothing as 0, and text as the numeral that it is between blanks.
def asNumber? : Value → Option Float
  | number n => some n
  | boolean b => some (if b then 1.0 else 0.0)
  | empty => some 0.0
  | text s => Decimal.readFloat? (Text.trimChars s.toList)
  | error _ => none

def toNumber : Value → Except ErrorKind Float
  | error e => .error e
  | v => match v.asNumber? with
    | some n => .ok n
    | none => .error .value

def truthy : Value → Bool
  | number n => n != 0.0
  | boolean b => b
  | text s =>
    let t := Text.trim s
    t != "" && !Text.asciiSame t "FALSE" && t != "0"
  | empty => false
  | error _ => false

def toText : Value → String
  | number n => Decimal.cellText n
  | text s => s
  | boolean b => if b then "TRUE" else "FALSE"
  | empty => ""
  | error e => e.text

-- An arithmetic result: a sum or product beyond all floats is `#VALUE!`.
def ofFloat (n : Float) : Value := if n.isFinite then number n else error .value

-- Text is typed as an empty cell, a truth value, a number, an error or itself, in this order;
-- only text that stays text keeps its surrounding blanks.
def ofTyped (raw : String) : Value :=
  let t := Text.trim raw
  if t = "" then empty
  else if Text.asciiSame t "TRUE" then boolean true
  else if Text.asciiSame t "FALSE" then boolean false
  else match Decimal.readFloat? t.toList with
    | some n => number n
    | none => match ErrorKind.ofText? t with
      | some e => error e
      | none => text raw

end Value

end Spreadsheet
