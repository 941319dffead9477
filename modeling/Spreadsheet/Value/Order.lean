import Spreadsheet.Value.Basic

-- Comparing values: exactly, in lookups, and by the relational operators.

set_option autoImplicit false

namespace Spreadsheet.Value

-- Equal as data; a number that is not a number differs from itself.
def same : Value → Value → Bool
  | number a, number b => a == b
  | text a, text b => a == b
  | boolean a, boolean b => a == b
  | empty, empty => true
  | error a, error b => a == b
  | _, _ => false

def floatCompare? (a b : Float) : Option Ordering :=
  if a < b then some .lt else if a == b then some .eq else if b < a then some .gt else none

def textCompare (a b : String) : Ordering := compare (Text.lower a) (Text.lower b)

def lookupEq : Value → Value → Bool
  | number a, number b => a == b
  | text a, text b => Text.lower a == Text.lower b
  | boolean a, boolean b => a == b
  | _, _ => false

-- The order that approximate lookups follow: within numbers and within texts only.
def lookupCompare? : Value → Value → Option Ordering
  | number a, number b => floatCompare? a b
  | text a, text b => some (textCompare a b)
  | _, _ => none

-- Numbers come before texts and texts before truth values.
def rank : Value → Nat
  | number _ => 0
  | empty => 0
  | text _ => 1
  | boolean _ => 2
  | error _ => 3

-- What an empty operand stands for beside `v`.
def zeroLike : Value → Value
  | text _ => text ""
  | boolean _ => boolean false
  | _ => number 0.0

def orZeroLike (v other : Value) : Value := if v.isEmpty then zeroLike other else v

-- The order of two values that are neither empty nor errors.
def filledCompare : Value → Value → Ordering
  | number a, number b => (floatCompare? a b).getD .eq
  | text a, text b => textCompare a b
  | boolean a, boolean b => compare a b
  | a, b => compare a.rank b.rank

-- The order that the relational operators describe.
def relation (a b : Value) : Ordering := filledCompare (a.orZeroLike b) (b.orZeroLike a)

end Spreadsheet.Value
