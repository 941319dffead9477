import Spreadsheet.Formula.Function

-- The value of an expression, as a reading of the cells, ranges and sheets that it depends on.

set_option autoImplicit false

namespace Spreadsheet.Formula

def BinaryOp.isComparison : BinaryOp → Bool
  | equal => true
  | notEqual => true
  | less => true
  | lessEqual => true
  | greater => true
  | greaterEqual => true
  | _ => false

def BinaryOp.holds (op : BinaryOp) (order : Ordering) : Bool :=
  match op with
  | equal => order == .eq
  | notEqual => order != .eq
  | less => order == .lt
  | lessEqual => order != .gt
  | greater => order == .gt
  | _ => order != .lt

def arithmetic (op : BinaryOp) (a b : Float) : Value :=
  match op with
  | .add => .ofFloat (a + b)
  | .subtract => .ofFloat (a - b)
  | .multiply => .ofFloat (a * b)
  | _ => if b == 0.0 then .error .divideByZero else .ofFloat (a / b)

-- An operator on two values; of two errors the left one is the result.
def BinaryOp.apply (op : BinaryOp) (a b : Value) : Value :=
  match a.error? <|> b.error? with
  | some e => .error e
  | none =>
    if op = concat then .text (a.toText ++ b.toText)
    else if op.isComparison then .boolean (op.holds (a.relation b))
    else
      match a.toNumber, b.toNumber with
      | .ok x, .ok y => arithmetic op x y
      | .error e, _ => .error e
      | _, .error e => .error e

def negated (v : Value) : Value :=
  match v.toNumber with
  | .ok n => .number (-n)
  | .error e => .error e

namespace Expr

mutual

def evaluate (home : SheetId) : Expr → Reading Value
  | number n => return .number n
  | text s => return .text s
  | boolean b => return .boolean b
  | error e => return .error e
  | reference r => r.value home
  | name _ => return .error .ref
  | negate operand => do return negated (← operand.evaluate home)
  | binary op left right => do
    let a ← left.evaluate home
    let b ← right.evaluate home
    return op.apply a b
  | call function args => Function.call function (argumentsOf home args)

def argumentsOf (home : SheetId) : List Expr → List Argument
  | [] => []
  | reference r :: rest => .reference home r :: argumentsOf home rest
  | e :: rest => .computed (fun _ => e.evaluate home) :: argumentsOf home rest

end

end Expr

end Spreadsheet.Formula
