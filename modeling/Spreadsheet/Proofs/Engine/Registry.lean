import Spreadsheet.Proofs.Engine.Settled

-- A registry that follows its store. One cell gets new content, or one stored formula becomes
-- known; either way the registry stays in step, and the formulas that do not depend on the cell
-- stay settled.

set_option autoImplicit false

namespace Spreadsheet

open Formula

-- The stores differ in what one cell holds, if at all.
structure Edited (k : Key) (m n : Memory) : Prop where
  sheets : m.sheets = n.sheets
  available : m.available = n.available
  others : ∀ p, p ≠ k → n.cells[p]? = m.cells[p]?

theorem edited_refl (k : Key) (m : Memory) : Edited k m m := ⟨rfl, rfl, fun _ _ => rfl⟩

theorem edited_put (m : Memory) (k : Key) (c : Cell) : Edited k m (m.put k c) :=
  ⟨rfl, rfl, fun p apart => by simp [Memory.put, lookup_insert, Ne.symm apart]⟩

theorem edited_remove (m : Memory) (k : Key) : Edited k m (m.remove k) :=
  ⟨rfl, rfl, fun p apart => by simp [Memory.remove, lookup_erase, Ne.symm apart]⟩

theorem edited_write_value (m : Memory) (k : Key) (v : Value) : Edited k m (m.writeValue k v) := by
  unfold Memory.writeValue
  split
  · exact edited_remove m k
  · exact edited_put m k _

theorem edited_input (k : Key) (m n : Memory) (edited : Edited k m n) (p : Key) (apart : p ≠ k) :
    n.inputAt p = m.inputAt p := by
  simp only [Memory.inputAt, edited.others p apart]

theorem edited_value (k : Key) (m n : Memory) (edited : Edited k m n) (p : Key) (apart : p ≠ k) :
    m.value p = n.value p := by
  simp only [Memory.value, edited.others p apart]

theorem empty_in_step (names : Names) (m : Memory) : InStep names m .empty :=
  ⟨Graph.empty_linked, fun k c found => by simp [Registry.empty] at found,
    fun k => by simp [Registry.empty, Graph.empty]⟩

section Edited

variable (names : Names) (m n : Memory) (r : Registry) (k : Key) (edited : Edited k m n)
  (step : InStep names m r)
include edited step

theorem insert_in_step (source : String) (input : n.inputAt k = some (.formula source))
    (ascii : (Compiled.ofSource names source).AsciiSheets) :
    InStep names n (r.insert k (.ofSource names source)
      (n.bound k.sheet (Compiled.ofSource names source).references)) := by
  refine ⟨Graph.set_formula_linked r.graph k _ step.linked, fun p c found => ?_, fun p => ?_⟩
  · simp only [Registry.insert, lookup_insert] at found
    by_cases here : k = p
    · subst here
      obtain rfl : Compiled.ofSource names source = c := by simpa using found
      exact ⟨ascii, source, input, rfl⟩
    · rw [if_neg here] at found
      rw [edited_input k m n edited p (Ne.symm here)]
      exact step.stored p c found
  · simp only [Registry.insert, Graph.set_formula_lookup, Std.ExtTreeMap.mem_insert,
      Std.LawfulEqCmp.compare_eq_iff_eq]
    by_cases here : k = p
    · subst here
      simp [Memory.referencesAt, input]
    · simp only [here, if_false, false_or, step.edges p]
      rw [references_congr names m n p edited.sheets
        (edited_input k m n edited p (Ne.symm here))]

theorem remove_in_step : InStep names n (r.remove k) := by
  refine ⟨Graph.remove_formula_linked r.graph k step.linked, fun p c found => ?_, fun p => ?_⟩
  · simp only [Registry.remove, lookup_erase] at found
    by_cases here : k = p
    · simp [here] at found
    · rw [if_neg here] at found
      rw [edited_input k m n edited p (Ne.symm here)]
      exact step.stored p c found
  · simp only [Registry.remove, Graph.remove_formula_lookup, Std.ExtTreeMap.mem_erase, ne_eq,
      Std.LawfulEqCmp.compare_eq_iff_eq]
    by_cases here : k = p
    · simp [here]
    · simp only [here, if_false, not_false_eq_true, true_and, step.edges p]
      rw [references_congr names m n p edited.sheets
        (edited_input k m n edited p (Ne.symm here))]

-- What does not depend on the edited cell stays settled, whatever the cell reads now.
theorem edited_settled (s : Registry)
    (same : ∀ f p, f ≠ k → s.graph.reads f p = r.graph.reads f p) (p : Key)
    (known : p ∈ r.formulas) (apart : p ≠ k) (free : ¬s.graph.DependsOn p k)
    (settled : Settled names r.graph m p) : Settled names s.graph n p := by
  have back (f q : Key) (distinct : f ≠ k) := (same f q distinct).symm
  refine settled_frame names m r n s.graph step p known edited.sheets (edited.others p apart)
    ⟨Graph.depends_on_frame s.graph r.graph k p p same apart free, fun looping => ?_⟩
    (fun _ q edge => edited_value k m n edited q ?_) settled
  · refine Graph.depends_on_frame r.graph s.graph k p p back apart (fun chain => free ?_) looping
    exact Graph.depends_on_target r.graph s.graph k p back apart chain
  · rintro rfl
    exact free (.single (same p q apart ▸ edge))

end Edited

theorem reads_insert (r : Registry) (k : Key) (c : Compiled) (references : List SheetRange)
    (f p : Key) (apart : f ≠ k) :
    (r.insert k c references).graph.reads f p = r.graph.reads f p := by
  simp only [Registry.insert, Graph.reads, Graph.precedents_of_set_formula, Ne.symm apart, if_false]

theorem reads_remove (r : Registry) (k f p : Key) (apart : f ≠ k) :
    (r.remove k).graph.reads f p = r.graph.reads f p := by
  simp only [Registry.remove, Graph.reads, Graph.precedents_of_remove_formula, Ne.symm apart,
    if_false]

theorem reads_unique (names : Names) (m : Memory) (r s : Registry) (first : InStep names m r)
    (second : InStep names m s) (known : ∀ k, k ∈ r.formulas ↔ k ∈ s.formulas) (f p : Key) :
    r.graph.reads f p = s.graph.reads f p := by
  simp only [Graph.reads, Graph.precedentsOf, first.edges f, second.edges f, known f]

theorem settled_unique (names : Names) (m : Memory) (r s : Registry) (first : InStep names m r)
    (second : InStep names m s) (known : ∀ k, k ∈ r.formulas ↔ k ∈ s.formulas) (k : Key)
    (settled : Settled names r.graph m k) : Settled names s.graph m k := by
  have same : r.graph.OnCycle k ↔ s.graph.OnCycle k := by
    simp only [Graph.OnCycle, Graph.DependsOn, reads_unique names m r s first second known]
  intro f found
  rw [← same]
  exact settled f found

end Spreadsheet
