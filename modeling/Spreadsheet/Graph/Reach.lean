import Spreadsheet.Graph.Basic

-- What can be reached along reads: the formulas that depend on given cells, and the reads that
-- stay within a set of cells.

set_option autoImplicit false

namespace Spreadsheet

-- Cells still to go on from, the next one first, with the cells met so far and those not met yet.
structure Frontier where
  queue : List Key
  met : KeySet
  fresh : KeySet

theorem size_ne_zero_of_mem (s : KeySet) (k : Key) (member : k ∈ s) : s.size ≠ 0 := by
  intro zero
  rw [← Std.ExtTreeSet.eq_empty_iff_size_eq_zero] at zero
  simp [zero] at member

theorem size_erase_succ (s : KeySet) (k : Key) (member : k ∈ s) :
    (s.erase k).size + 1 = s.size := by
  have nonempty := size_ne_zero_of_mem s k member
  rw [Std.ExtTreeSet.size_erase, if_pos (Std.ExtTreeSet.mem_iff_contains.mp member)]
  omega

namespace Frontier

-- The starts are gone on from, but have not been met themselves.
def begin (starts : List Key) (cells : KeySet) : Frontier := ⟨starts, ∅, cells⟩

def meet (f : Frontier) (k : Key) : Frontier :=
  if k ∈ f.fresh then ⟨f.queue ++ [k], f.met.insert k, f.fresh.erase k⟩ else f

def meetAll (f : Frontier) (ks : List Key) : Frontier := ks.foldl meet f

-- Goes on from the first cell of the queue.
def next? (next : Key → List Key) (f : Frontier) : Option Frontier :=
  match f.queue with
  | [] => none
  | k :: rest => some (meetAll { f with queue := rest } (next k))

-- How many cells have still to be gone on from at most.
def work (f : Frontier) : Nat := f.queue.length + f.fresh.size

theorem work_meet (f : Frontier) (k : Key) : (f.meet k).work = f.work := by
  unfold meet
  split
  · rename_i member
    have erased := size_erase_succ f.fresh k member
    simp only [work, List.length_append, List.length_singleton]
    omega
  · rfl

theorem work_meet_all (f : Frontier) (ks : List Key) : (f.meetAll ks).work = f.work := by
  induction ks generalizing f with
  | nil => rfl
  | cons k rest ih => exact (ih (f.meet k)).trans (work_meet f k)

-- No cell joins the queue twice, since it is fresh only once.
theorem work_next (next : Key → List Key) (f after : Frontier) (step : f.next? next = some after) :
    after.work + 1 = f.work := by
  unfold next? at step
  split at step
  · cases step
  · rename_i k rest queue
    cases step
    rw [work_meet_all]
    simp only [work, queue, List.length_cons]
    omega

-- Goes on until the queue is empty.
def finish (next : Key → List Key) (f : Frontier) : Frontier :=
  match _step : f.next? next with
  | none => f
  | some after => after.finish next
termination_by f.work
decreasing_by
  have less := work_next next f after _step
  omega

end Frontier

namespace Graph

def formulaSet (g : Graph) : KeySet := .ofList g.formulas

-- Every formula that reads one of the seeds, directly or by way of other formulas.
def closure (g : Graph) (seeds : List Key) : KeySet :=
  ((Frontier.begin seeds g.formulaSet).finish g.dependents).met

-- Adds `p` to the reads of `k`, where these are kept.
def noteRead (p : Key) (reads : KeyMap (List Key)) (k : Key) : KeyMap (List Key) :=
  match reads[k]? with
  | some ps => reads.insert k (ps ++ [p])
  | none => reads

-- For each cell of a set, the cells of the set that it reads.
def readsWithin (g : Graph) (cells : KeySet) : KeyMap (List Key) :=
  let none : KeyMap (List Key) := cells.toList.foldl (·.insert · []) ∅
  cells.toList.foldl (fun reads p => (g.dependents p).foldl (noteRead p) reads) none

end Graph

end Spreadsheet
