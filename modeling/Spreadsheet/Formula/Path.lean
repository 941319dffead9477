import Spreadsheet.Grid.Key

-- The chain of formula cells under evaluation.

set_option autoImplicit false

namespace Spreadsheet.Formula

-- The innermost cell comes first.
structure Path where
  cells : List Key
deriving DecidableEq

namespace Path

def root : Path := ⟨[]⟩

def push (p : Path) (k : Key) : Path := ⟨k :: p.cells⟩

def current? (p : Path) : Option Key := p.cells.head?

def contains (p : Path) (k : Key) : Bool := p.cells.contains k

def depth (p : Path) : Nat := p.cells.length

-- The cells from the innermost one back to `k`, or all of them when `k` is not among them.
def backTo (p : Path) (k : Key) : List Key :=
  p.cells.takeWhile (· ≠ k) ++ if k ∈ p.cells then [k] else []

end Path

end Spreadsheet.Formula
