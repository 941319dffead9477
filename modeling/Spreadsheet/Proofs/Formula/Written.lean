import Spreadsheet.Formula.Expr
import Spreadsheet.Formula.Lexer

-- Expressions spelled out as formula text, with no more parentheses than the binding of the
-- operators asks for.

set_option autoImplicit false

namespace Spreadsheet.Formula

namespace BinaryOp

-- How tightly an operator binds. Signs bind tighter than all of them.
def level : BinaryOp → Nat
  | equal => 0
  | notEqual => 0
  | less => 0
  | lessEqual => 0
  | greater => 0
  | greaterEqual => 0
  | concat => 1
  | add => 2
  | subtract => 2
  | multiply => 3
  | divide => 3

def chars : BinaryOp → List Char
  | equal => ['=']
  | notEqual => ['<', '>']
  | less => ['<']
  | lessEqual => ['<', '=']
  | greater => ['>']
  | greaterEqual => ['>', '=']
  | concat => ['&']
  | add => ['+']
  | subtract => ['-']
  | multiply => ['*']
  | divide => ['/']

def token : BinaryOp → Token
  | equal => .equal
  | notEqual => .notEqual
  | less => .less
  | lessEqual => .lessEqual
  | greater => .greater
  | greaterEqual => .greaterEqual
  | concat => .ampersand
  | add => .plus
  | subtract => .minus
  | multiply => .star
  | divide => .slash

end BinaryOp

def signLevel : Nat := 4

-- Operands that no operator is part of.
def operandLevel : Nat := 5

-- A power of ten as it is written after a decimal.
structure Power where
  mark : Char
  negative? : Option Bool
  digits : List Char
  marked : mark = 'e' ∨ mark = 'E'
  numeric : digits.all Decimal.isDigit = true
  filled : digits ≠ []

namespace Power

def sign : Option Bool → List Char
  | none => []
  | some false => ['+']
  | some true => ['-']

def chars (p : Power) : List Char := p.mark :: (sign p.negative? ++ p.digits)

def value (p : Power) : Int :=
  if p.negative?.getD false then -(Decimal.natOfDigits p.digits : Int)
  else Decimal.natOfDigits p.digits

end Power

-- A decimal without a sign, with a point as its mark. One side of the point may be missing.
structure Spelling where
  whole : List Char
  fraction? : Option (List Char)
  power? : Option Power
  wholeNumeric : whole.all Decimal.isDigit = true
  fractionNumeric : (fraction?.getD []).all Decimal.isDigit = true
  filled : whole ++ fraction?.getD [] ≠ []

namespace Spelling

def fractionChars (n : Spelling) : List Char := (n.fraction?.map ('.' :: ·)).getD []

def powerChars (n : Spelling) : List Char := (n.power?.map Power.chars).getD []

def chars (n : Spelling) : List Char := n.whole ++ (n.fractionChars ++ n.powerChars)

def value (n : Spelling) : Float :=
  (Decimal.Numeral.ofParts n.whole (n.fraction?.getD [])
    ((n.power?.map Power.value).getD 0)).toFloat

end Spelling

structure Identifier where
  first : Char
  rest : List Char
  start : isNameStart first = true
  parts : rest.all isNamePart = true

namespace Identifier

def chars (i : Identifier) : List Char := i.first :: i.rest

def text (i : Identifier) : String := String.ofList i.chars

-- Neither a truth value nor the address of a cell.
def Free (i : Identifier) : Prop :=
  Text.asciiSame i.text "TRUE" = false ∧ Text.asciiSame i.text "FALSE" = false ∧
    (Address.parse i.text).isOk = false

instance (i : Identifier) : Decidable i.Free := by unfold Free; infer_instance

end Identifier

def doubled (mark : Char) (cs : List Char) : List Char :=
  cs.flatMap fun c => if c = mark then [c, c] else [c]

-- The text with each quote character twice, between two more.
def quote (mark : Char) (cs : List Char) : List Char := mark :: (doubled mark cs ++ [mark])

-- A token together with its text.
inductive Lexeme where
  | number (n : Spelling)
  | text (s : String)
  | boolean (b : Bool)
  | error (e : ErrorKind)
  | cell (a : Address) (valid : a.Valid)
  | name (i : Identifier) (free : i.Free)
  | sheet (s : String)
  | function (i : Identifier)
  | operator (op : BinaryOp)
  | colon
  | separator
  | leftParen
  | rightParen

namespace Lexeme

def chars (separator : Char) : Lexeme → List Char
  | number n => n.chars
  | text s => quote '"' s.toList
  | boolean b => if b then "TRUE".toList else "FALSE".toList
  | error e => e.text.toList
  | cell a _ => a.chars
  | name i _ => i.chars
  | sheet s => quote '\'' s.toList ++ ['!']
  | function i => i.chars
  | operator op => op.chars
  | colon => [':']
  | .separator => [separator]
  | leftParen => ['(']
  | rightParen => [')']

def token : Lexeme → Token
  | number n => .number n.value
  | text s => .text s
  | boolean b => .boolean b
  | error e => .error e
  | cell a _ => .cell a
  | name i _ => .identifier i.text
  | sheet s => .sheet s
  | function i => .identifier i.text
  | operator op => op.token
  | colon => .colon
  | separator => .separator
  | leftParen => .leftParen
  | rightParen => .rightParen

end Lexeme

-- An expression whose leaves have a spelling.
inductive Written where
  | number (n : Spelling)
  | text (s : String)
  | boolean (b : Bool)
  | error (e : ErrorKind)
  | cell (sheet? : Option String) (a : Address) (valid : a.Valid)
  | range (sheet? : Option String) (r : Range) (valid : r.first.Valid ∧ r.last.Valid)
      (normal : r.Normal)
  | name (i : Identifier) (free : i.Free)
  | negate (operand : Written)
  | binary (op : BinaryOp) (left right : Written)
  | call (function : Identifier) (upper : Text.upper function.text = function.text)
      (args : List Written)

namespace Written

mutual

def expr : Written → Expr
  | number n => .number n.value
  | text s => .text s
  | boolean b => .boolean b
  | error e => .error e
  | cell sheet? a _ => .reference ⟨sheet?, .cell a⟩
  | range sheet? r _ _ => .reference ⟨sheet?, .range r⟩
  | name i _ => .name i.text
  | negate operand => .negate operand.expr
  | binary op left right => .binary op left.expr right.expr
  | call function _ args => .call function.text (exprs args)

def exprs : List Written → List Expr
  | [] => []
  | w :: rest => w.expr :: exprs rest

end

def level : Written → Nat
  | negate _ => signLevel
  | binary op _ _ => op.level
  | _ => operandLevel

def sheetLexemes (sheet? : Option String) : List Lexeme := (sheet?.map .sheet).toList

-- Parentheses around what binds too loosely.
def wrap (least level : Nat) (xs : List Lexeme) : List Lexeme :=
  if level < least then .leftParen :: (xs ++ [.rightParen]) else xs

mutual

def lexemes : Written → List Lexeme
  | number n => [.number n]
  | text s => [.text s]
  | boolean b => [.boolean b]
  | error e => [.error e]
  | cell sheet? a valid => sheetLexemes sheet? ++ [.cell a valid]
  | range sheet? r valid _ =>
    sheetLexemes sheet? ++ [.cell r.first valid.1, .colon, .cell r.last valid.2]
  | name i free => [.name i free]
  | negate operand => .operator .subtract :: wrap signLevel operand.level operand.lexemes
  | binary op left right =>
    wrap op.level left.level left.lexemes ++
      .operator op :: wrap (op.level + 1) right.level right.lexemes
  | call function _ args =>
    .function function :: .leftParen :: (argumentLexemes args ++ [.rightParen])

def argumentLexemes : List Written → List Lexeme
  | [] => []
  | w :: rest => w.lexemes ++ laterLexemes rest

def laterLexemes : List Written → List Lexeme
  | [] => []
  | w :: rest => .separator :: (w.lexemes ++ laterLexemes rest)

end

def chars (separator : Char) (w : Written) : List Char :=
  w.lexemes.flatMap (Lexeme.chars separator)

mutual

-- The operators and calls.
def nodes : Written → Nat
  | negate operand => operand.nodes + 1
  | binary _ left right => left.nodes + right.nodes + 1
  | call _ _ args => argumentNodes args + 1
  | number _ => 0
  | text _ => 0
  | boolean _ => 0
  | error _ => 0
  | cell _ _ _ => 0
  | range _ _ _ _ => 0
  | name _ _ => 0

def argumentNodes : List Written → Nat
  | [] => 0
  | w :: rest => w.nodes + argumentNodes rest

end

def wrapDepth (least level depth : Nat) : Nat := if level < least then depth + 1 else depth

mutual

-- The most parentheses and calls around one another; a call counts twice.
def depth : Written → Nat
  | negate operand => wrapDepth signLevel operand.level operand.depth
  | binary op left right =>
    max (wrapDepth op.level left.level left.depth)
      (wrapDepth (op.level + 1) right.level right.depth)
  | call _ _ args => argumentDepth args + 2
  | number _ => 0
  | text _ => 0
  | boolean _ => 0
  | error _ => 0
  | cell _ _ _ => 0
  | range _ _ _ _ => 0
  | name _ _ => 0

def argumentDepth : List Written → Nat
  | [] => 0
  | w :: rest => max w.depth (argumentDepth rest)

end

mutual

-- Some call has several arguments.
def Separates : Written → Prop
  | negate operand => operand.Separates
  | binary _ left right => left.Separates ∨ right.Separates
  | call _ _ args => 2 ≤ args.length ∨ SeparatesIn args
  | number _ => False
  | text _ => False
  | boolean _ => False
  | error _ => False
  | cell _ _ _ => False
  | range _ _ _ _ => False
  | name _ _ => False

def SeparatesIn : List Written → Prop
  | [] => False
  | w :: rest => w.Separates ∨ SeparatesIn rest

end

-- No division sign follows an error at once.
def ErrorsApart (w : Written) : Prop :=
  ∀ e, ¬[.error e, .operator .divide] <:+: w.lexemes

end Written

end Spreadsheet.Formula
