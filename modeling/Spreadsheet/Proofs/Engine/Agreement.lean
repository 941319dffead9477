import Spreadsheet.Proofs.Engine.Loads

-- Registries and stores that have the same formulas. A registry agrees with its store in which
-- cells are formulas and in their texts, whatever the results are; new content for one cell, a load
-- and new results keep it so.

set_option autoImplicit false

namespace Spreadsheet

open Formula

structure Agrees (m : Memory) (r : Registry) : Prop where
  linked : r.graph.Linked
  registered : ∀ k, r.graph.isFormula k = true ↔ k ∈ r.formulas
  stored : ∀ k, k ∈ r.formulas ↔ ∃ f, m.cells[k]? = some (.formula f)
  sources : ∀ (k : Key) (c : Compiled) (f : FormulaCell), r.formulas[k]? = some c →
    m.cells[k]? = some (.formula f) → c.source = f.source

-- The text of a known formula.
def Registry.sourceAt (r : Registry) (k : Key) : Option String := r.formulas[k]?.map Compiled.source

theorem agrees_of_inputs (m : Memory) (r : Registry) (linked : r.graph.Linked)
    (registered : ∀ k, r.graph.isFormula k = true ↔ k ∈ r.formulas)
    (inputs : ∀ k source, m.inputAt k = some (.formula source) ↔ r.sourceAt k = some source) :
    Agrees m r := by
  refine ⟨linked, registered, fun k => ?_, fun k c f known found => ?_⟩
  · rw [Std.ExtTreeMap.mem_iff_isSome_getElem?, Option.isSome_iff_exists]
    constructor
    · rintro ⟨c, known⟩
      have input := (inputs k c.source).mpr (by simp [Registry.sourceAt, known])
      obtain ⟨f, found, _⟩ := (input_formula m k c.source).mp input
      exact ⟨f, found⟩
    · rintro ⟨f, found⟩
      have source := (inputs k f.source).mp ((input_formula m k f.source).mpr ⟨f, found, rfl⟩)
      obtain ⟨c, known, _⟩ := Option.map_eq_some_iff.mp source
      exact ⟨c, known⟩
  · have source := (inputs k f.source).mp ((input_formula m k f.source).mpr ⟨f, found, rfl⟩)
    simpa [Registry.sourceAt, known] using source

section Agrees

variable (m n : Memory) (r : Registry) (agrees : Agrees m r)
include agrees

theorem agrees_inputs (k : Key) (source : String) :
    m.inputAt k = some (.formula source) ↔ r.sourceAt k = some source := by
  rw [input_formula, Registry.sourceAt, Option.map_eq_some_iff]
  constructor
  · rintro ⟨f, found, rfl⟩
    have known := (agrees.stored k).mpr ⟨f, found⟩
    obtain ⟨c, compiled⟩ :=
      Option.isSome_iff_exists.mp (Std.ExtTreeMap.mem_iff_isSome_getElem?.mp known)
    exact ⟨c, compiled, agrees.sources k c f compiled found⟩
  · rintro ⟨c, compiled, rfl⟩
    have known : k ∈ r.formulas := Std.ExtTreeMap.mem_iff_isSome_getElem?.mpr (by simp [compiled])
    obtain ⟨f, found⟩ := (agrees.stored k).mp known
    exact ⟨f, found, (agrees.sources k c f compiled found).symm⟩

theorem agrees_refreshed (inputs : ∀ k, n.inputAt k = m.inputAt k) : Agrees n r := by
  apply agrees_of_inputs n r agrees.linked agrees.registered
  intro k source
  rw [inputs k]
  exact agrees_inputs m r agrees k source

theorem agrees_whole : r.Whole := ⟨agrees.linked, agrees.registered⟩

section Edited

variable (k : Key) (edited : Edited k m n)
include edited

theorem agrees_insert (c : Compiled) (references : List SheetRange)
    (input : n.inputAt k = some (.formula c.source)) : Agrees n (r.insert k c references) := by
  have whole := r.insert_whole (agrees_whole m r agrees) k c references
  apply agrees_of_inputs n _ whole.linked whole.registered
  · intro p source
    simp only [Registry.sourceAt, Registry.insert, lookup_insert]
    by_cases here : k = p
    · subst here
      simp [input]
    · rw [if_neg here, edited_input k m n edited p (Ne.symm here)]
      exact agrees_inputs m r agrees p source

theorem agrees_remove (input : ∀ source, n.inputAt k ≠ some (.formula source)) :
    Agrees n (r.remove k) := by
  have whole := r.remove_whole (agrees_whole m r agrees) k
  apply agrees_of_inputs n _ whole.linked whole.registered
  · intro p source
    simp only [Registry.sourceAt, Registry.remove, lookup_erase]
    by_cases here : k = p
    · subst here
      simp [input source]
    · rw [if_neg here, edited_input k m n edited p (Ne.symm here)]
      exact agrees_inputs m r agrees p source

end Edited

theorem agrees_entries (names : Names) (entries : List Entry)
    (stored : ∀ entry ∈ entries, entry.Stored names m) :
    Agrees m (entries.foldl Registry.insertEntry r) := by
  induction entries generalizing r with
  | nil => exact agrees
  | cons entry rest ih =>
    apply ih _ _ fun other member => stored other (List.mem_cons_of_mem entry member)
    obtain ⟨k, source, input, rfl⟩ := stored entry List.mem_cons_self
    exact agrees_insert m m r agrees k (edited_refl k m) _ _ input

end Agrees

theorem empty_agrees (sheets : List SheetInfo) (available : Bool) :
    Agrees ⟨sheets, ∅, available⟩ .empty := by
  apply agrees_of_inputs _ _ Registry.empty_whole.linked Registry.empty_whole.registered
  · intro k source
    simp [Memory.inputAt, Registry.sourceAt, Registry.empty]

theorem entries_lookup (entries : List Entry) (r : Registry) (k : Key)
    (apart : k ∉ entries.map Prod.fst) :
    (entries.foldl Registry.insertEntry r).graph.precedents[k]? = r.graph.precedents[k]? := by
  induction entries generalizing r with
  | nil => rfl
  | cons entry rest ih =>
    obtain ⟨p, c, references⟩ := entry
    obtain ⟨here, later⟩ := not_or.mp (mt List.mem_cons.mpr apart)
    rw [List.foldl_cons, ih _ later]
    simp only [Registry.insertEntry, Registry.insert, Graph.set_formula_lookup,
      if_neg (Ne.symm here)]

end Spreadsheet
