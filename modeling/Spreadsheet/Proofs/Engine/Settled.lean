import Spreadsheet.Engine.Registry
import Spreadsheet.Proofs.Graph.Depth
import Spreadsheet.Proofs.Store.Answers

-- When the formulas of a store are up to date, and when a registry is in step with a store. Both
-- are said cell by cell: a formula is settled as soon as its result is the one that the present
-- contents give, and it stays so while the cells that it reads keep their values.

set_option autoImplicit false

namespace Spreadsheet

open Formula

def Cell.input : Cell → Input
  | .literal v => .value v
  | .formula f => .formula f.source

-- What was last put into a cell that is not blank. A recalculation does not change it.
def Memory.inputAt (m : Memory) (k : Key) : Option Input := m.cells[k]?.map Cell.input

def Memory.referencesAt (m : Memory) (names : Names) (k : Key) : Option (List SheetRange) :=
  match m.inputAt k with
  | some (.formula source) =>
    some (distinct (m.bound k.sheet (Compiled.ofSource names source).references))
  | _ => none

-- The formula at a cell refers to another cell.
def Memory.Reads (m : Memory) (names : Names) (k p : Key) : Prop :=
  ∃ source, m.inputAt k = some (.formula source) ∧
    ∃ r ∈ m.bound k.sheet (Compiled.ofSource names source).references, r.contains p = true

-- The formula at a cell, if there is one, shows `#CIRCULAR!` on a cycle of the graph and its
-- value under the present contents elsewhere.
def Settled (names : Names) (g : Graph) (m : Memory) (k : Key) : Prop :=
  ∀ f, m.cells[k]? = some (.formula f) →
    (g.OnCycle k → f.result = .error .circularReference) ∧
      (¬g.OnCycle k → f.result = m.computed names k f.source)

-- The registered formulas are stored, and the graph has their reads and no others.
structure InStep (names : Names) (m : Memory) (r : Registry) : Prop where
  linked : r.graph.Linked
  stored : ∀ (k : Key) (c : Compiled), r.formulas[k]? = some c →
    c.AsciiSheets ∧ ∃ source, m.inputAt k = some (.formula source) ∧ c = .ofSource names source
  edges : ∀ k : Key,
    r.graph.precedents[k]? = if k ∈ r.formulas then m.referencesAt names k else none

-- No stored formula is unknown to the registry.
def Complete (m : Memory) (r : Registry) : Prop :=
  ∀ k source, m.inputAt k = some (.formula source) → k ∈ r.formulas

theorem input_formula (m : Memory) (k : Key) (source : String) :
    m.inputAt k = some (.formula source) ↔
      ∃ f, m.cells[k]? = some (.formula f) ∧ f.source = source := by
  rw [Memory.inputAt, Option.map_eq_some_iff]
  constructor
  · rintro ⟨c, found, same⟩
    cases c with
    | literal v => cases same
    | formula f => exact ⟨f, found, Input.formula.inj same⟩
  · rintro ⟨f, found, rfl⟩
    exact ⟨.formula f, found, rfl⟩

theorem references_congr (names : Names) (m n : Memory) (k : Key) (sheets : m.sheets = n.sheets)
    (input : n.inputAt k = m.inputAt k) : n.referencesAt names k = m.referencesAt names k := by
  simp only [Memory.referencesAt, input, Memory.bound_congr m n _ _ sheets]

-- The graph and the compiled formulas of a registry are of the same cells.
structure Registry.Whole (r : Registry) : Prop where
  linked : r.graph.Linked
  registered : ∀ k, r.graph.isFormula k = true ↔ k ∈ r.formulas

namespace Registry

theorem empty_whole : empty.Whole := by
  refine ⟨Graph.empty_linked, fun k => ?_⟩
  simp [empty, Graph.empty, Graph.isFormula]

section Linked

variable (r : Registry) (linked : r.graph.Linked)
include linked

theorem affected_iff (seeds : List Key) (k : Key) :
    k ∈ r.affected seeds ↔
      (∃ s ∈ seeds, r.graph.DependsOn k s) ∨ k ∈ seeds ∧ r.graph.isFormula k = true := by
  rw [affected, member_insert_all, Graph.mem_closure r.graph linked, List.mem_filter, or_comm]

theorem affected_closed (seeds : List Key) (p : Key) (member : p ∈ r.affected seeds) (k : Key)
    (edge : r.graph.reads k p = true) : k ∈ r.affected seeds := by
  refine (affected_iff r linked seeds k).mpr (.inl ?_)
  rcases (affected_iff r linked seeds p).mp member with ⟨s, seed, chain⟩ | ⟨seed, _⟩
  · exact ⟨s, seed, .head edge chain⟩
  · exact ⟨p, seed, .single edge⟩

-- The cycles within what a request affects are the cycles of the whole graph through it.
theorem affected_cycle (seeds : List Key) (k : Key) (member : k ∈ r.affected seeds) :
    r.graph.DependsWithin (r.affected seeds) k k ↔ r.graph.OnCycle k := by
  constructor
  · exact fun chain => chain.lift id fun _ _ edge => edge.2.2
  · exact fun chain => (Graph.depends_within_of_closed r.graph (r.affected seeds)
      (affected_closed r linked seeds) k k member chain).2

end Linked

section Whole

variable (r : Registry) (whole : r.Whole)
include whole

theorem insert_whole (k : Key) (c : Compiled) (references : List SheetRange) :
    (r.insert k c references).Whole := by
  refine ⟨Graph.set_formula_linked r.graph k references whole.linked, fun p => ?_⟩
  simp only [insert, Graph.is_formula_set_formula, Std.ExtTreeMap.mem_insert,
    Std.LawfulEqCmp.compare_eq_iff_eq, whole.registered p]

theorem remove_whole (k : Key) : (r.remove k).Whole := by
  refine ⟨Graph.remove_formula_linked r.graph k whole.linked, fun p => ?_⟩
  have before := whole.registered p
  rw [Graph.is_formula_eq] at before
  simp only [remove, Graph.is_formula_eq, Graph.remove_formula_lookup, Std.ExtTreeMap.mem_erase,
    ne_eq, Std.LawfulEqCmp.compare_eq_iff_eq]
  by_cases here : k = p
  · simp [here]
  · simpa [here] using before

theorem mem_affected (seeds : List Key) (k : Key) :
    k ∈ r.affected seeds ↔
      (∃ s ∈ seeds, r.graph.DependsOn k s) ∨ k ∈ seeds ∧ k ∈ r.formulas := by
  rw [affected_iff r whole.linked, whole.registered]

theorem affected_formulas (seeds : List Key) (k : Key) (member : k ∈ r.affected seeds) :
    k ∈ r.formulas := by
  cases (mem_affected r whole seeds k).mp member with
  | inl dependent =>
    obtain ⟨s, _, chain⟩ := dependent
    obtain ⟨p, first, _⟩ := Relation.TransGen.head'_iff.mp chain
    exact (whole.registered k).mp (Graph.formula_of_reads r.graph k p first)
  | inr seed => exact seed.2

theorem plan_order (seeds : List Key) : (r.plan seeds).order = r.graph.order (r.affected seeds) := by
  refine List.filter_eq_self.mpr fun k member => decide_eq_true ?_
  exact affected_formulas r whole seeds k ((Graph.mem_order r.graph _ k).mp member)

theorem mem_plan_order (seeds : List Key) (k : Key) :
    k ∈ (r.plan seeds).order ↔
      k ∈ r.graph.closure seeds ∨ k ∈ seeds ∧ r.graph.isFormula k = true := by
  rw [plan_order r whole, Graph.mem_order, affected_iff r whole.linked,
    Graph.mem_closure r.graph whole.linked]

end Whole

end Registry

section InStep

variable (names : Names) (m : Memory) (r : Registry)

theorem in_step_congr (n : Memory) (sheets : m.sheets = n.sheets)
    (inputs : ∀ k, n.inputAt k = m.inputAt k) (step : InStep names m r) : InStep names n r := by
  refine ⟨step.linked, fun k c found => ?_, fun k => ?_⟩
  · rw [inputs k]
    exact step.stored k c found
  · rw [references_congr names m n k sheets (inputs k)]
    exact step.edges k

theorem stored_formula (step : InStep names m r) (k : Key) (known : k ∈ r.formulas) :
    ∃ source, m.inputAt k = some (.formula source) ∧
      r.formulas[k]? = some (.ofSource names source) := by
  obtain ⟨c, found⟩ := Option.isSome_iff_exists.mp (Std.ExtTreeMap.mem_iff_isSome_getElem?.mp known)
  obtain ⟨_, source, input, rfl⟩ := step.stored k c found
  exact ⟨source, input, found⟩

theorem known_formula (step : InStep names m r) (k : Key) (known : k ∈ r.formulas)
    (source : String) (input : m.inputAt k = some (.formula source)) :
    r.formulas[k]? = some (.ofSource names source) ∧
      (Compiled.ofSource names source).AsciiSheets := by
  obtain ⟨other, same, found⟩ := stored_formula names m r step k known
  obtain rfl : source = other := Input.formula.inj (Option.some.inj (input.symm.trans same))
  exact ⟨found, (step.stored k _ found).1⟩

theorem is_formula_iff (step : InStep names m r) (k : Key) :
    r.graph.isFormula k = true ↔ k ∈ r.formulas := by
  rw [Graph.isFormula, decide_eq_true_eq, Std.ExtTreeMap.mem_iff_isSome_getElem?, step.edges k]
  by_cases known : k ∈ r.formulas
  · obtain ⟨source, input, _⟩ := stored_formula names m r step k known
    simp [known, Memory.referencesAt, input]
  · simp [known]

theorem reads_bound (step : InStep names m r) (k p : Key) (source : String)
    (known : k ∈ r.formulas) (input : m.inputAt k = some (.formula source)) :
    r.graph.reads k p = true ↔
      ∃ x ∈ m.bound k.sheet (Compiled.ofSource names source).references, x.contains p = true := by
  rw [Graph.reads_iff]
  simp only [Graph.precedentsOf, step.edges k, known, if_true, Memory.referencesAt, input,
    Option.getD_some, mem_distinct]

theorem reads_stored (step : InStep names m r) (complete : Complete m r) (k p : Key) :
    r.graph.reads k p = true ↔ m.Reads names k p := by
  constructor
  · intro edge
    have formula := Graph.formula_of_reads r.graph k p edge
    have known := (is_formula_iff names m r step k).mp formula
    obtain ⟨source, input, _⟩ := stored_formula names m r step k known
    exact ⟨source, input, (reads_bound names m r step k p source known input).mp edge⟩
  · rintro ⟨source, input, covered⟩
    exact (reads_bound names m r step k p source (complete k source input) input).mpr covered

theorem computed_frame (n : Memory) (step : InStep names m r) (k : Key) (source : String)
    (known : k ∈ r.formulas) (input : m.inputAt k = some (.formula source))
    (sheets : m.sheets = n.sheets)
    (values : ∀ p, r.graph.reads k p = true → m.value p = n.value p) :
    m.computed names k source = n.computed names k source := by
  refine Memory.computed_congr m n names k source sheets ?_
  intro x member p inside
  exact values p ((reads_bound names m r step k p source known input).mpr ⟨x, member, inside⟩)

-- A formula stays settled where it keeps its place on or off the cycles and, off them, what it
-- reads keeps its value.
theorem settled_frame (n : Memory) (g : Graph) (step : InStep names m r) (k : Key)
    (known : k ∈ r.formulas) (sheets : m.sheets = n.sheets) (cell : n.cells[k]? = m.cells[k]?)
    (cycle : g.OnCycle k ↔ r.graph.OnCycle k)
    (values : ¬r.graph.OnCycle k → ∀ p, r.graph.reads k p = true → m.value p = n.value p)
    (settled : Settled names r.graph m k) : Settled names g n k := by
  intro f found
  rw [cell] at found
  obtain ⟨circular, computed⟩ := settled f found
  refine ⟨fun looping => circular (cycle.mp looping), fun free => ?_⟩
  have stays := mt cycle.mpr free
  have input := (input_formula m k f.source).mpr ⟨f, found, rfl⟩
  exact (computed stays).trans
    (computed_frame names m r n step k f.source known input sheets (values stays))

theorem in_step_whole (step : InStep names m r) : r.Whole :=
  ⟨step.linked, is_formula_iff names m r step⟩

theorem mem_affected (step : InStep names m r) (seeds : List Key) (k : Key) :
    k ∈ r.affected seeds ↔
      (∃ s ∈ seeds, r.graph.DependsOn k s) ∨ k ∈ seeds ∧ k ∈ r.formulas :=
  r.mem_affected (in_step_whole names m r step) seeds k

theorem affected_known (step : InStep names m r) (seeds : List Key) (k : Key)
    (member : k ∈ r.affected seeds) : k ∈ r.formulas :=
  r.affected_formulas (in_step_whole names m r step) seeds k member

end InStep

end Spreadsheet
