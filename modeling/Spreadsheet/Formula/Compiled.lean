import Spreadsheet.Formula.Evaluation
import Spreadsheet.Formula.Parser

-- Formulas read once and evaluated often.

set_option autoImplicit false

namespace Spreadsheet.Formula

-- Text that is no formula is kept with the reason.
structure Compiled where
  source : String
  expr : Except ParseError Expr

namespace Compiled

def ofSource (names : Names) (source : String) : Compiled := ⟨source, parseWith names source⟩

def expr? (c : Compiled) : Option Expr := c.expr.toOption

def isValid (c : Compiled) : Bool := c.expr?.isSome

def parseError? (c : Compiled) : Option ParseError :=
  match c.expr with
  | .ok _ => none
  | .error e => some e

-- Text that is no formula refers to nothing.
def references (c : Compiled) : List Reference := (c.expr?.map Expr.references).getD []

def kind (c : Compiled) : String := (c.expr?.map Expr.kind).getD customKind

-- The value on the sheet `home`; text that is no formula is `#ERROR!`.
def evaluate (c : Compiled) (home : SheetId) : Reading Value :=
  match c.expr with
  | .ok e => e.evaluate home
  | .error _ => return .error .formulaSyntax

end Compiled

end Spreadsheet.Formula
