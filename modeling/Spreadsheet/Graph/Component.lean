import Spreadsheet.Graph.Reach

-- The cells that depend on themselves within a set, found as the strongly connected components
-- of more than one cell and the cells that read themselves.

set_option autoImplicit false

namespace Spreadsheet

-- A cell under visit and the reads still to look at.
structure Frame where
  cell : Key
  rest : List Key

-- A depth-first search that numbers the cells as it meets them. The pile holds the cells whose
-- component is not complete, the last one met on top; `low` is the least number of a cell of the
-- pile that a cell is known to lead to.
structure Components where
  frames : List Frame
  fresh : KeySet
  index : KeyMap Nat
  low : KeyMap Nat
  pile : List Key
  piled : KeySet
  cyclic : KeySet

namespace Components

def begin (cells : List Key) : Components := ⟨[], .ofList cells, ∅, ∅, [], ∅, ∅⟩

def indexOf (c : Components) (k : Key) : Nat := c.index[k]?.getD 0

def lowOf (c : Components) (k : Key) : Nat := c.low[k]?.getD 0

def enter (reads : Key → List Key) (c : Components) (k : Key) : Components :=
  { c with
    frames := ⟨k, reads k⟩ :: c.frames
    fresh := c.fresh.erase k
    index := c.index.insert k c.index.size
    low := c.low.insert k c.index.size
    pile := k :: c.pile
    piled := c.piled.insert k }

def lower (c : Components) (k : Key) (n : Nat) : Components :=
  { c with low := c.low.insert k (min (c.lowOf k) n) }

-- The cells of a pile down to `k`, and those below.
def takeDownTo (k : Key) : List Key → List Key × List Key
  | [] => ([], [])
  | p :: rest =>
    if p = k then ([p], rest)
    else
      let (taken, left) := takeDownTo k rest
      (p :: taken, left)

-- Takes the component of `k` off the pile.
def complete (reads : Key → List Key) (c : Components) (k : Key) : Components :=
  let (members, pile) := takeDownTo k c.pile
  { c with
    pile
    piled := members.foldl (·.erase ·) c.piled
    cyclic := if 1 < members.length ∨ k ∈ reads k then members.foldl (·.insert ·) c.cyclic
      else c.cyclic }

-- The innermost visit has ended; what its cell leads to, the cell around it leads to.
def leave (reads : Key → List Key) (c : Components) (k : Key) (outer : List Frame) : Components :=
  let lowest := c.lowOf k
  let c := { c with frames := outer }
  let c := match outer with
    | [] => c
    | around :: _ => c.lower around.cell lowest
  if lowest = c.indexOf k then c.complete reads k else c

-- One look at a read, or the end of a visit.
def next? (reads : Key → List Key) (c : Components) : Option Components :=
  match c.frames with
  | [] => none
  | ⟨k, p :: rest⟩ :: outer =>
    let c := { c with frames := ⟨k, rest⟩ :: outer }
    if p ∈ c.fresh then some (c.enter reads p)
    else if p ∈ c.piled then some (c.lower k (c.indexOf p))
    else some c
  | ⟨k, []⟩ :: outer => some (c.leave reads k outer)

-- What the visits under way have still to do.
def work (c : Components) : Nat := c.frames.foldr (fun f n => f.rest.length + 1 + n) 0

theorem leave_keeps (reads : Key → List Key) (c : Components) (k : Key) (outer : List Frame) :
    (c.leave reads k outer).frames = outer ∧ (c.leave reads k outer).fresh = c.fresh := by
  unfold leave
  cases outer <;> dsimp only <;> split <;> exact ⟨rfl, rfl⟩

-- A step meets a fresh cell or leaves less to do.
theorem next_smaller (reads : Key → List Key) (c after : Components)
    (step : c.next? reads = some after) :
    Prod.Lex (· < ·) (· < ·) (after.fresh.size, after.work) (c.fresh.size, c.work) := by
  unfold next? at step
  split at step
  · cases step
  · rename_i k p rest outer frames
    dsimp only at step
    split at step
    · rename_i fresh
      cases step
      have erased := size_erase_succ c.fresh p fresh
      exact .left _ _ (by simp only [enter]; omega)
    · split at step <;> cases step <;> exact .right _ (by simp [work, lower, frames])
  · rename_i k outer frames
    cases step
    obtain ⟨left, fresh⟩ := leave_keeps reads c k outer
    rw [fresh]
    exact .right _ (by simp [work, left, frames])

-- Goes on until every visit under way has ended.
def finish (reads : Key → List Key) (c : Components) : Components :=
  match _step : c.next? reads with
  | none => c
  | some after => after.finish reads
termination_by (c.fresh.size, c.work)
decreasing_by exact next_smaller reads c after _step

def visit (reads : Key → List Key) (c : Components) (k : Key) : Components :=
  if k ∈ c.index then c else (c.enter reads k).finish reads

end Components

-- The cells of a list that lead back to themselves.
def loopingCells (reads : Key → List Key) (cells : List Key) : KeySet :=
  (cells.foldl (Components.visit reads) (.begin cells)).cyclic

-- The cells of a set that depend on themselves by way of cells of the set.
def Graph.cyclicCells (g : Graph) (cells : KeySet) : KeySet :=
  let reads := g.readsWithin cells
  loopingCells (fun k => reads[k]?.getD []) cells.toList

end Spreadsheet
