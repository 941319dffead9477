import Spreadsheet.Value.Basic
import Spreadsheet.Text.Quoted
import Spreadsheet.Grid.Address

-- The tokens of formula text, and how messages show them.

set_option autoImplicit false

namespace Spreadsheet.Formula

inductive Token where
  | number (n : Float)
  | text (s : String)
  | boolean (b : Bool)
  | error (e : ErrorKind)
  | identifier (s : String)
  | cell (a : Address)
  | sheet (name : String)
  | plus
  | minus
  | star
  | slash
  | ampersand
  | equal
  | notEqual
  | less
  | lessEqual
  | greater
  | greaterEqual
  | colon
  | separator
  | leftParen
  | rightParen
  | eof

def errorName : ErrorKind → String
  | .formulaSyntax => "FormulaSyntax"
  | .ref => "Ref"
  | .notAvailable => "NotAvailable"
  | .value => "Value"
  | .divideByZero => "DivideByZero"
  | .circularReference => "CircularReference"

def Token.description : Token → String
  | number n => "Number(" ++ Decimal.formulaText n ++ ")"
  | text s => "Text(" ++ Text.quoted s ++ ")"
  | boolean b => if b then "Boolean(true)" else "Boolean(false)"
  | error e => "Error(" ++ errorName e ++ ")"
  | identifier s => "Identifier(" ++ Text.quoted s ++ ")"
  | cell a =>
    "CellRef(CellAddress \x7b row: " ++ toString a.row ++ ", col: " ++ toString a.col ++ " \x7d)"
  | sheet name => "SheetRef(" ++ Text.quoted name ++ ")"
  | plus => "Plus"
  | minus => "Minus"
  | star => "Star"
  | slash => "Slash"
  | ampersand => "Ampersand"
  | equal => "Equal"
  | notEqual => "NotEqual"
  | less => "LessThan"
  | lessEqual => "LessEqual"
  | greater => "GreaterThan"
  | greaterEqual => "GreaterEqual"
  | colon => "Colon"
  | separator => "Separator"
  | leftParen => "LeftParen"
  | rightParen => "RightParen"
  | eof => "Eof"

end Spreadsheet.Formula
