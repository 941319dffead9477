import Spreadsheet.Proofs.Graph.Histories

-- The closure of seeds is found in one turn of the queue for each seed and one for each formula
-- in it, whether or not the reads run in circles.

set_option autoImplicit false

namespace Spreadsheet

namespace Frontier

-- The search after so many turns, or where it has come to its end.
def turns (next : Key → List Key) (f : Frontier) : Nat → Frontier
  | 0 => f
  | n + 1 =>
    match f.next? next with
    | none => f
    | some after => after.turns next n

section Turns

variable (next : Key → List Key)

theorem finish_idle (f : Frontier) (idle : f.queue = []) : f.finish next = f := by
  rw [finish]
  split
  · rfl
  · rename_i after step
    rw [(idle_iff next f).mpr idle] at step
    cases step

theorem finish_step (f after : Frontier) (step : f.next? next = some after) :
    f.finish next = after.finish next := by
  rw [finish]
  split
  · rename_i ended
    rw [ended] at step
    cases step
  · rename_i found same
    rw [same] at step
    cases step
    rfl

theorem idle_finish (f : Frontier) : (f.finish next).queue = [] := by
  fun_induction finish next f with
  | case1 f ended => exact (idle_iff next f).mp ended
  | case2 f after step ih => exact ih

theorem work_finish (f : Frontier) : (f.finish next).work ≤ f.work := by
  fun_induction finish next f with
  | case1 f ended => exact Nat.le_refl _
  | case2 f after step ih =>
    have less := work_next next f after step
    omega

theorem finish_turns (f : Frontier) (n : Nat) : (f.turns next n).finish next = f.finish next := by
  induction n generalizing f with
  | zero => rfl
  | succ n ih =>
    cases step : f.next? next with
    | none => simp [turns, step]
    | some after =>
      simp only [turns, step]
      exact (ih after).trans (finish_step next f after step).symm

-- What is left to do shrinks by one in each turn, down to what is never met.
theorem idle_turns (f : Frontier) (n : Nat) :
    (f.turns next n).queue = [] ↔ f.work ≤ n + (f.finish next).fresh.size := by
  induction n generalizing f with
  | zero =>
    have ended := idle_finish next f
    constructor
    · intro idle
      have stays : f.finish next = f := finish_idle next f idle
      have idle : f.queue = [] := idle
      simp [work, stays, idle]
    · intro bound
      have least : (f.finish next).work = (f.finish next).fresh.size := by simp [work, ended]
      cases step : f.next? next with
      | none => exact (idle_iff next f).mp step
      | some after =>
        have less := work_next next f after step
        have later := work_finish next after
        rw [← finish_step next f after step] at later
        omega
  | succ n ih =>
    cases step : f.next? next with
    | none =>
      have idle := (idle_iff next f).mp step
      simp only [turns, step, finish_idle next f idle, idle, work, List.length_nil, true_iff]
      omega
    | some after =>
      have less := work_next next f after step
      have same := finish_step next f after step
      simp only [turns, step]
      rw [ih after, same]
      omega

end Turns

-- Each cell has been met or not, and none is lost.
structure Parted (cells : KeySet) (f : Frontier) : Prop where
  apart : ∀ k ∈ f.fresh, k ∉ f.met
  whole : f.met.size + f.fresh.size = cells.size

section Parted

variable (cells : KeySet) (next : Key → List Key)

theorem parted_begin (starts : List Key) : Parted cells (begin starts cells) where
  apart k _ met := by simp [begin] at met
  whole := by simp [begin]

theorem parted_meet (f : Frontier) (k : Key) (parted : Parted cells f) :
    Parted cells (f.meet k) := by
  by_cases fresh : k ∈ f.fresh
  · simp only [meet, if_pos fresh]
    constructor
    · intro p left
      obtain ⟨other, left⟩ := (member_erase f.fresh k p).mp left
      rw [member_insert]
      rintro (same | met)
      · exact other same
      · exact parted.apart p left met
    · change (f.met.insert k).size + (f.fresh.erase k).size = cells.size
      have erased := size_erase_succ f.fresh k fresh
      have unmet : ¬f.met.contains k = true := parted.apart k fresh
      have inserted : (f.met.insert k).size = f.met.size + 1 := by
        rw [Std.ExtTreeSet.size_insert, if_neg unmet]
      have whole := parted.whole
      omega
  · simpa only [meet, if_neg fresh] using parted

theorem parted_meet_all (f : Frontier) (ks : List Key) (parted : Parted cells f) :
    Parted cells (f.meetAll ks) := by
  induction ks generalizing f with
  | nil => exact parted
  | cons k rest ih => exact ih (f.meet k) (parted_meet cells f k parted)

theorem parted_finish (f : Frontier) (parted : Parted cells f) :
    Parted cells (f.finish next) := by
  fun_induction finish next f with
  | case1 f ended => exact parted
  | case2 f after step ih =>
    apply ih
    unfold next? at step
    split at step
    · cases step
    · rename_i k rest _
      cases step
      exact parted_meet_all cells _ (next k) ⟨parted.apart, parted.whole⟩

end Parted

end Frontier

namespace Graph

theorem size_formula_set (g : Graph) : g.formulaSet.size = g.formulaCount := by
  rw [formulaSet, formulas, Std.ExtTreeSet.size_ofList Std.ExtTreeMap.distinct_keys,
    Std.ExtTreeMap.length_keys, formulaCount]

theorem closure_exact (edits : List Edit) (seeds : List Key) :
    let g := after edits
    let turns := (Frontier.begin seeds g.formulaSet).turns g.dependents
    (∀ k, k ∈ g.closure seeds ↔ g.isFormula k = true ∧ ∃ s ∈ seeds, g.DependsOn k s) ∧
      (∀ n, (turns n).queue = [] ↔ seeds.length + (g.closure seeds).size ≤ n) ∧
        (∀ n, (turns n).queue = [] → (turns n).met = g.closure seeds) ∧
          (g.closure seeds).size ≤ g.formulaCount := by
  intro g turns
  let begun := Frontier.begin seeds g.formulaSet
  have closure : g.closure seeds = (begun.finish g.dependents).met := rfl
  have whole := (Frontier.parted_finish g.formulaSet g.dependents begun
    (Frontier.parted_begin g.formulaSet seeds)).whole
  rw [← closure] at whole
  have count := size_formula_set g
  refine ⟨fun k => ?_, fun n => ?_, fun n idle => ?_, by omega⟩
  · rw [mem_closure g (after_linked edits), iff_and_self]
    rintro ⟨s, _, chain⟩
    obtain ⟨p, edge, _⟩ := Relation.TransGen.head'_iff.mp chain
    exact formula_of_reads g k p edge
  · have work : begun.work = seeds.length + g.formulaSet.size := rfl
    rw [Frontier.idle_turns g.dependents begun n, work]
    omega
  · have ended := Frontier.finish_idle g.dependents (turns n) idle
    rw [Frontier.finish_turns g.dependents begun n] at ended
    rw [closure, ended]

end Graph

end Spreadsheet
