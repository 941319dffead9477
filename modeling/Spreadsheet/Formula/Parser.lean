import Spreadsheet.Formula.Expr
import Spreadsheet.Formula.Lexer
import Spreadsheet.Formula.Names

-- Formula text as expressions. From the loosest to the tightest bind: comparison, `&`, `+` and
-- `-`, `*` and `/`, signs, `:`. Binary operators group to the left. Defined names are replaced
-- by the expressions that their texts stand for.

set_option autoImplicit false

namespace Spreadsheet.Formula

-- The tokens still to read, the first of them first, and the number of operators and calls
-- already read.
structure ParserState where
  tokens : Tokens
  nodes : Nat

abbrev Parser (α : Type) : Type := StateT ParserState (Except ParseError) α

namespace Parser

def current : Parser Token := do return (← get).tokens.list.headD .eof

-- The current token; the one after it becomes current, and its scan error comes up here.
def consume : Parser Token := do
  let s ← get
  match s.tokens.list with
  | [] => return .eof
  | [last] =>
    match s.tokens.failure? with
    | some e => throw (.scan e)
    | none => return last
  | token :: rest =>
    set { s with tokens := ⟨rest, s.tokens.failure?⟩ }
    return token

def addNode : Parser Unit := do
  let s ← get
  if s.nodes < maxNodes then set { s with nodes := s.nodes + 1 } else throw .tooManyNodes

def leftParen : Parser Unit := do
  match ← current with
  | .leftParen => discard consume
  | found => throw (.expected .leftParen found)

def rightParen : Parser Unit := do
  match ← current with
  | .rightParen => discard consume
  | found => throw (.expected .rightParen found)

def chain (op? : Token → Option BinaryOp) (operand : Parser Expr) : Nat → Expr → Parser Expr
  | 0, left => return left
  | fuel + 1, left => do
    match op? (← current) with
    | none => return left
    | some op =>
      discard consume
      addNode
      let right ← operand
      chain op? operand fuel (.binary op left right)

def comparison? : Token → Option BinaryOp
  | .equal => some .equal
  | .notEqual => some .notEqual
  | .less => some .less
  | .lessEqual => some .lessEqual
  | .greater => some .greater
  | .greaterEqual => some .greaterEqual
  | _ => none

def concatenation? : Token → Option BinaryOp
  | .ampersand => some .concat
  | _ => none

def additive? : Token → Option BinaryOp
  | .plus => some .add
  | .minus => some .subtract
  | _ => none

def multiplicative? : Token → Option BinaryOp
  | .star => some .multiply
  | .slash => some .divide
  | _ => none

def levels : List (Token → Option BinaryOp) :=
  [comparison?, concatenation?, additive?, multiplicative?]

-- No chain has more operators than a formula may have.
def binary : List (Token → Option BinaryOp) → Parser Expr → Parser Expr
  | [], operand => operand
  | op? :: tighter, operand => do
    let left ← binary tighter operand
    chain op? (binary tighter operand) (maxNodes + 1) left

-- The number of minus signs among the signs that stand here.
def signs : Nat → Parser Nat
  | 0 => return 0
  | fuel + 1 => do
    match ← current with
    | .minus =>
      addNode
      discard consume
      return (← signs fuel) + 1
    | .plus =>
      discard consume
      signs fuel
    | _ => return 0

def negateTimes (n : Nat) (e : Expr) : Expr := Nat.repeat .negate n e

-- A primary or two of them joined by a colon.
def rangeOf (primary : Parser Expr) : Parser Expr := do
  let left ← primary
  match ← current with
  | .colon =>
    discard consume
    let right ← primary
    match left, right with
    | .reference ⟨sheet?, .cell first⟩, .reference ⟨other?, .cell last⟩ =>
      match sheet?, other? with
      | some sheet, some other =>
        if Text.asciiSame sheet other then
          return .reference ⟨some sheet, .range (.between first last)⟩
        else throw .twoSheets
      | _, _ => return .reference ⟨sheet? <|> other?, .range (.between first last)⟩
    | _, _ => throw .rangeEnds
  | _ => return left

-- A range after signs; no formula has more signs than characters.
def signed (primary : Parser Expr) : Parser Expr := do
  let negations ← signs (maxLength + 1)
  return negateTimes negations (← rangeOf primary)

def moreArguments (argument : Parser Expr) : Nat → Parser (List Expr)
  | 0 => return []
  | fuel + 1 => do
    match ← current with
    | .separator =>
      discard consume
      let first ← argument
      return first :: (← moreArguments argument fuel)
    | _ => return []

def arguments (argument : Parser Expr) : Parser (List Expr) := do
  match ← current with
  | .rightParen => return []
  | _ =>
    let first ← argument
    return first :: (← moreArguments argument (maxLength + 1))

-- The call of a function whose name has been read; `argument?` is missing where no further
-- nesting is allowed.
def callOf (argument? : Option (Parser Expr)) (name : String) : Parser Expr := do
  leftParen
  addNode
  match argument? with
  | none => throw .tooDeep
  | some argument =>
    let args ← arguments argument
    rightParen
    return .call (Text.upper name) args

-- An operand. `substitute` gives the expression that a defined name stands for.
def primary (substitute : String → Option (Except ParseError Expr)) (inner : Parser Expr)
    (argument? : Option (Parser Expr)) : Parser Expr := do
  match ← consume with
  | .number n => return .number n
  | .text s => return .text s
  | .boolean b => return .boolean b
  | .error e => return .error e
  | .cell a => return .reference ⟨none, .cell a⟩
  | .sheet sheet =>
    match ← consume with
    | .cell a => return .reference ⟨some sheet, .cell a⟩
    | found => throw (.notCell sheet found)
  | .leftParen =>
    let e ← inner
    rightParen
    return e
  | .identifier name =>
    match ← current with
    | .leftParen => callOf argument? name
    | _ =>
      match substitute name with
      | some (.ok e) => return e
      | some (.error error) => throw (.inName name error)
      | none => return .name name
  | found => throw (.unexpected found)

-- An expression that may hold so many parentheses around one another, its own level included. A
-- call takes one level and each of its arguments another.
def expression (substitute : String → Option (Except ParseError Expr)) : Nat → Parser Expr
  | 0 => throw .tooDeep
  | 1 => binary levels (signed (primary substitute (throw .tooDeep) none))
  | room + 2 =>
    binary levels (signed (primary substitute (expression substitute (room + 1))
      (some (expression substitute room))))

end Parser

-- The text of a formula without blanks around it and without its equals sign.
def body (text : String) : List Char :=
  match Text.trimChars text.toList with
  | '=' :: rest => rest
  | cs => cs

def parseTokens (substitute : String → Option (Except ParseError Expr)) (tokens : Tokens) :
    Except ParseError Expr := do
  match tokens with
  | ⟨[], some e⟩ => throw (.scan e)
  | _ =>
    let (e, s) ← (Parser.expression substitute maxDepth).run ⟨tokens, 0⟩
    match s.tokens.list.headD .eof with
    | .eof => return e
    | found => throw (.trailing found)

def parseBody (substitute : String → Option (Except ParseError Expr)) (cs : List Char) :
    Except ParseError Expr :=
  if cs.all Text.isBlank then .error .blank
  else if maxLength < cs.length then .error .tooLong
  else parseTokens substitute (tokenize cs)

def parse (text : String) : Except ParseError Expr := parseBody (fun _ => none) (body text)

-- Reads a formula. The text of a defined name is a formula of its own, without names.
def parseWith (names : Names) (text : String) : Except ParseError Expr :=
  parseBody (fun name => (names.get? name).map parse) (body text)

end Spreadsheet.Formula
