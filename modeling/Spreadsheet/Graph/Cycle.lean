import Spreadsheet.Graph.Component

-- A cycle of reads through a given cell.

set_option autoImplicit false

namespace Spreadsheet

-- A depth-first search along reads, the innermost visit first, with the cells not met yet.
structure Search where
  frames : List Frame
  fresh : KeySet

namespace Search

def enter (reads : Key → List Key) (s : Search) (k : Key) : Search :=
  ⟨⟨k, reads k⟩ :: s.frames, s.fresh.erase k⟩

def begin (reads : Key → List Key) (cells : KeySet) (start : Key) : Search :=
  enter reads ⟨[], cells⟩ start

-- The cells under visit, each of which is read by the one after it.
def path (s : Search) : List Key := s.frames.map Frame.cell

-- One look at a read, or the end of a visit. A read of `start` ends the search.
def next? (reads : Key → List Key) (start : Key) (s : Search) : Option Search :=
  match s.frames with
  | [] => none
  | ⟨k, p :: rest⟩ :: outer =>
    let s := { s with frames := ⟨k, rest⟩ :: outer }
    if p = start then none else if p ∈ s.fresh then some (s.enter reads p) else some s
  | ⟨_, []⟩ :: outer => some { s with frames := outer }

-- The cells under visit from the outermost on, where the innermost one reads `start`.
def way? (start : Key) (s : Search) : Option (List Key) :=
  match s.frames with
  | ⟨_, p :: _⟩ :: _ => if p = start then some s.path.reverse else none
  | _ => none

-- What the visits under way have still to do.
def work (s : Search) : Nat := s.frames.foldr (fun f n => f.rest.length + 1 + n) 0

-- A step meets a fresh cell or leaves less to do.
theorem next_smaller (reads : Key → List Key) (start : Key) (s after : Search)
    (step : s.next? reads start = some after) :
    Prod.Lex (· < ·) (· < ·) (after.fresh.size, after.work) (s.fresh.size, s.work) := by
  unfold next? at step
  split at step
  · cases step
  · rename_i k p rest outer frames
    dsimp only at step
    split at step
    · cases step
    · split at step
      · rename_i fresh
        cases step
        have erased := size_erase_succ s.fresh p fresh
        exact .left _ _ (by simp only [enter]; omega)
      · cases step
        exact .right _ (by simp [work, frames])
  · rename_i k outer frames
    cases step
    exact .right _ (by simp [work, frames])

-- Goes on until a way closes or every visit has ended.
def finish (reads : Key → List Key) (start : Key) (s : Search) : Search :=
  match _step : s.next? reads start with
  | none => s
  | some after => after.finish reads start
termination_by (s.fresh.size, s.work)
decreasing_by exact next_smaller reads start s after _step

end Search

namespace Graph

-- The formulas of a sheet from one address to another, row by row.
def formulasBetween (g : Graph) (sheet : SheetId) (first last : Address) : List Key :=
  (g.formulasOn sheet).filter fun k =>
    (compare first k.addr).isLE && (compare k.addr last).isLE

-- The formulas that a formula reads, range by range.
def formulasRead (g : Graph) (k : Key) : List Key :=
  (g.precedentsOf k).flatMap fun r =>
    (g.formulasBetween r.sheet r.range.first r.range.last).filter r.contains

-- The cells of a cycle from `start` on, each of which reads the next one.
def findCycle? (g : Graph) (start : Key) : Option (List Key) :=
  let reads := g.formulasRead
  ((Search.begin reads g.formulaSet start).finish reads start).way? start

def isCircular (g : Graph) (k : Key) : Bool := (g.findCycle? k).isSome

end Graph

end Spreadsheet
