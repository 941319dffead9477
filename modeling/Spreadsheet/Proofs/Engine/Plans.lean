import Spreadsheet.Proofs.Engine.Settled
import Spreadsheet.Proofs.Graph.Cyclic

-- A plan looks for cycles only among the cells that it evaluates. No read leads from outside them
-- back in, so it finds all of each cycle that it finds any cell of.

set_option autoImplicit false

namespace Spreadsheet

namespace Graph

-- Every read is by a formula, so a cycle never leaves the formulas.
theorem mem_cyclic_formulas (g : Graph) (linked : g.Linked) (k : Key) :
    k ∈ g.cyclicCells g.formulaSet ↔ g.OnCycle k := by
  rw [mem_cyclic_cells g linked]
  constructor
  · exact fun chain => chain.lift id fun _ _ edge => edge.2.2
  · intro chain
    have formula (a b : Key) (edge : g.reads a b = true) : a ∈ g.formulaSet :=
      (mem_formula_set g a).mpr (formula_of_reads g a b edge)
    obtain ⟨p, edge, _⟩ := Relation.TransGen.head'_iff.mp chain
    exact (depends_within_of_closed g g.formulaSet (fun b _ a => formula a b) k k
      (formula k p edge) chain).2

end Graph

namespace Registry

section Linked

variable (r : Registry) (linked : r.graph.Linked) (seeds : List Key)
include linked

theorem mem_cyclic_affected (k : Key) :
    k ∈ r.graph.cyclicCells (r.affected seeds) ↔ k ∈ r.affected seeds ∧ r.graph.OnCycle k := by
  rw [Graph.mem_cyclic_cells r.graph linked]
  constructor
  · intro chain
    obtain ⟨_, first, _⟩ := Relation.TransGen.head'_iff.mp chain
    exact ⟨first.1, (affected_cycle r linked seeds k first.1).mp chain⟩
  · exact fun ⟨inside, looping⟩ => (affected_cycle r linked seeds k inside).mpr looping

-- What leads to an affected cell is affected, and so is all that a cycle through one passes.
theorem affected_circle (k p : Key) (inside : k ∈ r.affected seeds) (out : r.graph.DependsOn k p)
    (back : r.graph.DependsOn p k) :
    p ∈ r.affected seeds ∧ p ∈ r.graph.cyclicCells (r.affected seeds) := by
  have affected := (Graph.depends_within_of_closed r.graph (r.affected seeds)
    (affected_closed r linked seeds) p k inside back).1
  exact ⟨affected, (mem_cyclic_affected r linked seeds p).mpr ⟨affected, back.trans out⟩⟩

end Linked

theorem plan_finds_cycles (edits : List Graph.Edit) (formulas : KeyMap Formula.Compiled)
    (seeds : List Key) :
    let r : Registry := ⟨Graph.after edits, formulas⟩
    let cells := r.affected seeds
    let cyclic := r.graph.cyclicCells cells
    (∀ k, k ∈ cells ↔ k ∈ r.graph.closure seeds ∨ k ∈ seeds ∧ r.graph.isFormula k = true) ∧
      (r.plan seeds).cyclic = cyclic ∧
        (∀ k, k ∈ cyclic ↔ k ∈ cells ∧ k ∈ r.graph.cyclicCells r.graph.formulaSet) ∧
          (∀ k, k ∈ cyclic ↔ k ∈ cells ∧ r.graph.OnCycle k) ∧
            ∀ k ∈ cyclic, ∀ p, r.graph.DependsOn k p → r.graph.DependsOn p k →
              p ∈ cells ∧ p ∈ cyclic := by
  intro r cells cyclic
  have linked : r.graph.Linked := Graph.after_linked edits
  have found := mem_cyclic_affected r linked seeds
  refine ⟨fun k => ?_, rfl, fun k => ?_, found, fun k member p out back => ?_⟩
  · rw [affected_iff r linked, Graph.mem_closure r.graph linked]
  · rw [found, Graph.mem_cyclic_formulas r.graph linked]
  · have inside := ((found k).mp member).1
    exact affected_circle r linked seeds k p inside out back

end Registry

end Spreadsheet
