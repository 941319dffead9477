import Spreadsheet.Graph.Component
import Spreadsheet.Graph.Cycle
import Spreadsheet.Graph.Order
import Spreadsheet.Proofs.Graph.Chains

-- Graphs by their history of edits. A graph answers for exactly the formulas that the edits have
-- left, in whatever order they came, so it is the same as one that knows of nothing else.

set_option autoImplicit false

namespace Spreadsheet.Graph

inductive Edit where
  | set (formula : Key) (references : List SheetRange)
  | remove (formula : Key)
  | clear

def edited (g : Graph) : Edit → Graph
  | .set formula references => g.setFormula formula references
  | .remove formula => g.removeFormula formula
  | .clear => empty

def after (edits : List Edit) : Graph := edits.foldl edited empty

-- The formulas that an edit leaves, with the references last given for each.
def leaves (kept : KeyMap (List SheetRange)) : Edit → KeyMap (List SheetRange)
  | .set formula references => kept.insert formula references
  | .remove formula => kept.erase formula
  | .clear => ∅

def surviving (edits : List Edit) : KeyMap (List SheetRange) := edits.foldl leaves ∅

-- The graph registers what is kept, each reference once.
structure Registers (g : Graph) (kept : KeyMap (List SheetRange)) : Prop where
  linked : g.Linked
  precedents : ∀ k : Key, g.precedents[k]? = kept[k]?.map distinct

theorem edited_registers (g : Graph) (kept : KeyMap (List SheetRange)) (edit : Edit)
    (registers : g.Registers kept) : (g.edited edit).Registers (leaves kept edit) := by
  cases edit with
  | set formula references =>
    refine ⟨set_formula_linked g formula references registers.linked, fun k => ?_⟩
    simp only [edited, leaves, set_formula_lookup, lookup_insert]
    split
    · rfl
    · exact registers.precedents k
  | remove formula =>
    refine ⟨remove_formula_linked g formula registers.linked, fun k => ?_⟩
    simp only [edited, leaves, remove_formula_lookup, lookup_erase]
    split
    · rfl
    · exact registers.precedents k
  | clear => exact ⟨empty_linked, fun k => by simp [edited, leaves, empty]⟩

theorem after_registers (edits : List Edit) : (after edits).Registers (surviving edits) := by
  suffices ∀ g kept, Registers g kept →
      (edits.foldl edited g).Registers (edits.foldl leaves kept) from
    this empty ∅ ⟨empty_linked, fun k => by simp [empty]⟩
  induction edits with
  | nil => exact fun _ _ registers => registers
  | cons edit rest ih =>
    exact fun g kept registers => ih _ _ (edited_registers g kept edit registers)

theorem after_linked (edits : List Edit) : (after edits).Linked := (after_registers edits).linked

-- All that can be asked of two graphs has the same answers.
structure Alike (g h : Graph) : Prop where
  formulas : ∀ k, g.isFormula k = h.isFormula k
  count : g.formulaCount = h.formulaCount
  sheets : ∀ sheet, g.formulasOn sheet = h.formulasOn sheet
  precedents : ∀ k, g.precedentsOf k = h.precedentsOf k
  dependents : ∀ k, g.dependents k = h.dependents k
  closures : ∀ seeds, g.closure seeds = h.closure seeds
  orders : ∀ cells, g.order cells = h.order cells
  cycles : ∀ cells, g.cyclicCells cells = h.cyclicCells cells
  ways : ∀ k, g.findCycle? k = h.findCycle? k

theorem dependents_sorted (g : Graph) (k : Key) :
    (g.dependents k).Pairwise fun a b => a.place < b.place := to_list_sorted _

theorem formulas_on_sorted (g : Graph) (sheet : SheetId) :
    (g.formulasOn sheet).Pairwise fun a b => a.place < b.place := by
  refine List.pairwise_map.mpr (Std.ExtTreeSet.ordered_toList.imp fun {a b} less => ?_)
  have same : compare (⟨sheet, a⟩ : Key) ⟨sheet, b⟩ =
      (compare sheet sheet).then (compare a b) := rfl
  have home : compare sheet sheet = .eq := Std.ReflCmp.compare_self
  rw [← Key.compare_lt_iff, same, home]
  exact less

theorem alike_of_registers (g h : Graph) (kept : KeyMap (List SheetRange))
    (first : g.Registers kept) (second : h.Registers kept) : g.Alike h := by
  have precedents : g.precedents = h.precedents :=
    Std.ExtTreeMap.ext_getElem? fun k => (first.precedents k).trans (second.precedents k).symm
  have formulas (k : Key) : g.isFormula k = h.isFormula k := by
    rw [isFormula, isFormula, precedents]
  have held (k : Key) : g.precedentsOf k = h.precedentsOf k := by
    rw [precedentsOf, precedentsOf, precedents]
  have dependents (k : Key) : g.dependents k = h.dependents k := by
    refine sorted_unique _ _ _ (dependents_sorted g k) (dependents_sorted h k) fun f => ?_
    rw [mem_dependents g first.linked, mem_dependents h second.linked, reads, reads, held]
  have sheets (sheet : SheetId) : g.formulasOn sheet = h.formulasOn sheet := by
    refine sorted_unique _ _ _ (formulas_on_sorted g sheet) (formulas_on_sorted h sheet)
      fun f => ?_
    rw [mem_formulas_on_sheet g first.linked, mem_formulas_on_sheet h second.linked, formulas]
  have set : g.formulaSet = h.formulaSet := by
    rw [formulaSet, formulaSet, Graph.formulas, Graph.formulas, precedents]
  have within (cells : KeySet) : g.readsWithin cells = h.readsWithin cells := by
    rw [readsWithin, readsWithin, funext dependents]
  refine ⟨formulas, by rw [formulaCount, formulaCount, precedents], sheets, held, dependents,
    fun seeds => ?_, fun cells => ?_, fun cells => ?_, fun k => ?_⟩
  · rw [closure, closure, funext dependents, set]
  · rw [order, order, within]
  · rw [cyclicCells, cyclicCells, within]
  · have read : g.formulasRead = h.formulasRead := by
      funext k
      simp only [formulasRead, formulasBetween, held, sheets]
    rw [findCycle?, findCycle?, set, read]

theorem distinct_after_eq {α : Type} [DecidableEq α] (seen xs : List α) :
    distinctAfter seen xs = (xs.filter (· ∉ seen)).eraseDups := by
  induction xs generalizing seen with
  | nil => rfl
  | cons x rest ih =>
    by_cases known : x ∈ seen
    · simp [distinctAfter, known, ih]
    · have narrowed : rest.filter (· ∉ x :: seen) =
          (rest.filter (· ∉ seen)).filter (fun y => !y == x) := by
        rw [List.filter_filter]
        exact List.filter_congr fun y _ => by grind
      rw [distinctAfter, if_neg known, List.filter_cons_of_pos (by simpa using known),
        List.eraseDups_cons, ih, narrowed]

theorem distinct_eq {α : Type} [DecidableEq α] (xs : List α) : distinct xs = xs.eraseDups := by
  rw [distinct, distinct_after_eq]
  simp

-- The graph tells what is kept, by formula and by cell, and nothing else.
structure Reflects (g : Graph) (kept : KeyMap (List SheetRange)) : Prop where
  formulas : ∀ f, g.isFormula f = true ↔ f ∈ kept
  count : g.formulaCount = kept.size
  precedents : ∀ f, g.precedentsOf f = (kept[f]?.map List.eraseDups).getD []
  dependents : ∀ c f, f ∈ g.dependents c ↔ f ∈ kept ∧ ∃ r ∈ g.precedentsOf f, r.contains c = true
  dependents_sorted : ∀ c, (g.dependents c).Pairwise fun a b => a.place < b.place
  sheets : ∀ sheet f, f ∈ g.formulasOn sheet ↔ f ∈ kept ∧ f.sheet = sheet
  sheets_sorted : ∀ sheet, (g.formulasOn sheet).Pairwise fun a b => a.place < b.place

theorem reflects_of_registers (g : Graph) (kept : KeyMap (List SheetRange))
    (registers : g.Registers kept) : g.Reflects kept := by
  have formulas (f : Key) : g.isFormula f = true ↔ f ∈ kept := by
    rw [is_formula_eq, registers.precedents, Option.isSome_map,
      Std.ExtTreeMap.mem_iff_isSome_getElem?]
  refine ⟨formulas, ?_, fun f => ?_, fun c f => ?_, dependents_sorted g, fun sheet f => ?_,
    formulas_on_sorted g⟩
  · have same : g.precedents = kept.map fun _ => distinct :=
      Std.ExtTreeMap.ext_getElem? fun k => by
        rw [registers.precedents, Std.ExtTreeMap.getElem?_map]
    rw [formulaCount, same, Std.ExtTreeMap.size_map]
  · rw [precedentsOf, registers.precedents, funext distinct_eq]
  · rw [mem_dependents g registers.linked, ← formulas, ← reads_iff]
    exact (and_iff_right_of_imp (formula_of_reads g f c)).symm
  · rw [mem_formulas_on_sheet g registers.linked, formulas, and_comm]

-- Setting each of some formulas anew leaves just these.
theorem surviving_sets (entries : List (Key × List SheetRange))
    (distinct : (entries.map Prod.fst).Nodup) (k : Key) (references : List SheetRange) :
    (surviving (entries.map fun e => .set e.1 e.2))[k]? = some references ↔
      (k, references) ∈ entries := by
  suffices ∀ kept : KeyMap (List SheetRange),
      ((entries.map fun e => Edit.set e.1 e.2).foldl leaves kept)[k]? = some references ↔
        (k, references) ∈ entries ∨ k ∉ entries.map Prod.fst ∧ kept[k]? = some references by
    simpa [surviving] using this ∅
  induction entries with
  | nil => simp
  | cons e rest ih =>
    obtain ⟨apart, later⟩ := List.nodup_cons.mp distinct
    intro kept
    obtain ⟨f, read⟩ := e
    rw [List.map_cons, List.foldl_cons, ih later, leaves, lookup_insert]
    by_cases here : f = k
    · subst here
      have free : f ∉ rest.map Prod.fst := apart
      have absent : (f, references) ∉ rest := fun member => free (List.mem_map_of_mem member)
      simp [absent, free, eq_comm]
    · have other : k ≠ f := fun same => here same.symm
      simp [here, other]

theorem graph_in_step (edits : List Edit) : (after edits).Reflects (surviving edits) ∧
    ∀ entries : List (Key × List SheetRange), entries.Perm (surviving edits).toList →
      (after edits).Alike (after (entries.map fun e => .set e.1 e.2)) := by
  refine ⟨reflects_of_registers _ _ (after_registers edits), fun entries perm => ?_⟩
  have distinct : (entries.map Prod.fst).Nodup := by
    rw [(perm.map Prod.fst).nodup_iff, Std.ExtTreeMap.map_fst_toList_eq_keys]
    refine Std.ExtTreeMap.distinct_keys.imp fun {a b} apart => ?_
    rintro rfl
    simp at apart
  have same : surviving (entries.map fun e => .set e.1 e.2) = surviving edits :=
    Std.ExtTreeMap.ext_getElem? fun k => Option.ext fun references => by
      rw [surviving_sets entries distinct, perm.mem_iff,
        Std.ExtTreeMap.mem_toList_iff_getElem?_eq_some]
  exact alike_of_registers _ _ (surviving edits) (after_registers edits)
    (same ▸ after_registers _)

-- A read shared by two formulas, one given twice, one dropped anew and a formula removed; the
-- formulas left are set again in the opposite order.
theorem graph_in_step_after_removal :
    let a : Key := ⟨⟨1⟩, ⟨1, 1⟩⟩
    let b : Key := ⟨⟨1⟩, ⟨2, 1⟩⟩
    let c : Key := ⟨⟨2⟩, ⟨1, 1⟩⟩
    let block : SheetRange := ⟨⟨1⟩, ⟨⟨1, 2⟩, ⟨3, 4⟩⟩⟩
    let edits : List Edit := [.set c [block], .set a [block, .ofKey c, block], .set b [.ofKey c],
      .set a [.ofKey b, .ofKey c, .ofKey b], .remove c]
    let entries : List (Key × List SheetRange) :=
      [(b, [.ofKey c]), (a, [.ofKey b, .ofKey c, .ofKey b])]
    entries.Perm (surviving edits).toList ∧ (after edits).Reflects (surviving edits) ∧
      (after edits).Alike (after (entries.map fun e => .set e.1 e.2)) := by
  intro a b c block edits entries
  have left : entries.Perm (surviving edits).toList := by decide +kernel
  exact ⟨left, (graph_in_step edits).1, (graph_in_step edits).2 entries left⟩

end Spreadsheet.Graph
