import Spreadsheet.Formula.Compiled
import Spreadsheet.Graph.Component
import Spreadsheet.Graph.Order
import Spreadsheet.Graph.Cycle
import Spreadsheet.Engine.Request

-- The formulas that an engine knows, and the plan of a recalculation.

set_option autoImplicit false

namespace Spreadsheet

open Formula

structure Registry where
  graph : Graph
  formulas : KeyMap Compiled

-- What a request evaluates, in order, and which of it is circular.
structure Plan where
  order : List Key
  formulas : KeyMap Compiled
  cyclic : KeySet

namespace Registry

def empty : Registry := ⟨.empty, ∅⟩

def insert (r : Registry) (k : Key) (formula : Compiled) (references : List SheetRange) :
    Registry :=
  ⟨r.graph.setFormula k references, r.formulas.insert k formula⟩

def remove (r : Registry) (k : Key) : Registry := ⟨r.graph.removeFormula k, r.formulas.erase k⟩

-- The formulas that depend on the seeds, and the seeds that are formulas.
def affected (r : Registry) (seeds : List Key) : KeySet :=
  (seeds.filter r.graph.isFormula).foldl (·.insert ·) (r.graph.closure seeds)

def plan (r : Registry) (seeds : List Key) : Plan :=
  let cells := r.affected seeds
  let order := (r.graph.order cells).filter (· ∈ r.formulas)
  { order
    formulas := r.formulas.filter fun k _ => k ∈ cells
    cyclic := r.graph.cyclicCells cells }

-- The sheets that a request with these seeds reads or writes.
def touchedSheets (r : Registry) (seeds : List Key) : SheetSet :=
  let cells := (r.graph.closure seeds).toList ++ seeds
  .ofList (cells.flatMap fun k => k.sheet :: (r.graph.precedentsOf k).map SheetRange.sheet)

def inspect (r : Registry) (k : Key) : Inspection :=
  { key := k
    precedents := r.graph.precedentsOf k
    dependents := r.graph.dependents k
    order := r.graph.order (r.graph.closure [k])
    cycle? := r.graph.findCycle? k }

end Registry

end Spreadsheet
