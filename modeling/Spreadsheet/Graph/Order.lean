import Spreadsheet.Graph.Reach

-- The order of evaluation: by depth, where a cell lies one deeper than the deepest cell that it
-- reads.

set_option autoImplicit false

namespace Spreadsheet

-- A cell under visit, the reads still to look at, and one more than the deepest read so far.
structure Visit where
  cell : Key
  rest : List Key
  depth : Nat

-- A depth-first walk along reads, the innermost visit first, with the cells not met yet and the
-- depths of the cells whose visit has ended.
structure Walk where
  visits : List Visit
  fresh : KeySet
  depths : KeyMap Nat

namespace Walk

def begin (cells : List Key) : Walk := ⟨[], .ofList cells, ∅⟩

def enter (reads : Key → List Key) (w : Walk) (k : Key) : Walk :=
  { w with visits := ⟨k, reads k, 0⟩ :: w.visits, fresh := w.fresh.erase k }

-- The cell around the innermost one lies deeper than what it reads.
def deepen (depth : Nat) : List Visit → List Visit
  | [] => []
  | v :: outer => { v with depth := max v.depth (depth + 1) } :: outer

-- One look at a read, or the end of a visit. A read of a cell under visit closes a cycle and
-- does not count.
def next? (reads : Key → List Key) (w : Walk) : Option Walk :=
  match w.visits with
  | [] => none
  | ⟨k, p :: rest, depth⟩ :: outer =>
    match w.depths[p]? with
    | some d => some { w with visits := ⟨k, rest, max depth (d + 1)⟩ :: outer }
    | none =>
      let w := { w with visits := ⟨k, rest, depth⟩ :: outer }
      if p ∈ w.fresh then some (w.enter reads p) else some w
  | ⟨k, [], depth⟩ :: outer =>
    some { w with visits := deepen depth outer, depths := w.depths.insert k depth }

-- What the visits under way have still to do.
def work (w : Walk) : Nat := w.visits.foldr (fun v n => v.rest.length + 1 + n) 0

theorem work_deepen (depth : Nat) (visits : List Visit) :
    (deepen depth visits).foldr (fun v n => v.rest.length + 1 + n) 0 =
      visits.foldr (fun v n => v.rest.length + 1 + n) 0 := by
  cases visits <;> rfl

-- A step meets a fresh cell or leaves less to do.
theorem next_smaller (reads : Key → List Key) (w after : Walk) (step : w.next? reads = some after) :
    Prod.Lex (· < ·) (· < ·) (after.fresh.size, after.work) (w.fresh.size, w.work) := by
  unfold next? at step
  split at step
  · cases step
  · rename_i k p rest depth outer visits
    split at step
    · cases step
      exact .right _ (by simp [work, visits])
    · dsimp only at step
      split at step
      · rename_i fresh
        cases step
        have erased := size_erase_succ w.fresh p fresh
        exact .left _ _ (by simp only [enter]; omega)
      · cases step
        exact .right _ (by simp [work, visits])
  · rename_i k depth outer visits
    cases step
    exact .right _ (by simp [work, visits, work_deepen])

-- Goes on until every visit under way has ended.
def finish (reads : Key → List Key) (w : Walk) : Walk :=
  match _step : w.next? reads with
  | none => w
  | some after => after.finish reads
termination_by (w.fresh.size, w.work)
decreasing_by exact next_smaller reads w after _step

def visit (reads : Key → List Key) (w : Walk) (k : Key) : Walk :=
  if k ∈ w.depths then w else (w.enter reads k).finish reads

end Walk

def depthsOf (reads : Key → List Key) (cells : List Key) : KeyMap Nat :=
  (cells.foldl (Walk.visit reads) (.begin cells)).depths

-- Layer by layer; in each layer the cells keep their order.
def layers (ranked : List (Key × Nat)) : List Key :=
  let deepest := (ranked.map Prod.snd).foldl max 0
  (List.range (deepest + 1)).flatMap fun d =>
    ranked.filterMap fun (k, depth) => if depth = d then some k else none

def byDepth (reads : Key → List Key) (cells : List Key) : List Key :=
  let depths := depthsOf reads cells
  layers (cells.map fun k => (k, depths[k]?.getD 0))

-- The cells of a set, each after the cells of the set that it reads.
def Graph.order (g : Graph) (cells : KeySet) : List Key :=
  let reads := g.readsWithin cells
  byDepth (fun k => reads[k]?.getD []) cells.toList

end Spreadsheet
