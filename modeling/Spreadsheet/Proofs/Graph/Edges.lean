import Spreadsheet.Graph.Basic
import Spreadsheet.Proofs.Grid.Lookup

-- The two directions of a graph tell the same reads, and the lists of the sheets the same
-- formulas, whatever has been registered and removed: the formulas that depend on a cell are
-- those that hold a range with the cell.

set_option autoImplicit false

namespace Spreadsheet.Graph

-- The reverse direction of a graph lists exactly the reads that `held` tells.
structure Indexed (g : Graph) (held : Key → SheetRange → Prop) : Prop where
  cells : ∀ k f, f ∈ g.readersOf k ↔ held f (.ofKey k)
  ranges : ∀ r f, (r.range, f) ∈ g.rangeReadersOn r.sheet ↔ r.range.isSingle = false ∧ held f r

structure Linked (g : Graph) : Prop where
  indexed : g.Indexed fun f r => r ∈ g.precedentsOf f
  listed : ∀ k, k.addr ∈ g.addressesOn k.sheet ↔ g.isFormula k = true

theorem link_forward (g : Graph) (f : Key) (r : SheetRange) :
    (g.link f r).precedents = g.precedents ∧ (g.link f r).addresses = g.addresses := by
  unfold link
  split <;> exact ⟨rfl, rfl⟩

theorem unlink_forward (g : Graph) (f : Key) (r : SheetRange) :
    (g.unlink f r).precedents = g.precedents ∧ (g.unlink f r).addresses = g.addresses := by
  unfold unlink
  split <;> exact ⟨rfl, rfl⟩

theorem link_indexed (g : Graph) (held : Key → SheetRange → Prop) (f : Key) (r : SheetRange)
    (indexed : g.Indexed held) :
    (g.link f r).Indexed fun f' r' => held f' r' ∨ f' = f ∧ r' = r := by
  unfold link
  by_cases single : r.range.isSingle = true
  · have covers := single_range_eq r single
    rw [if_pos single]
    generalize (⟨r.sheet, r.range.first⟩ : Key) = target at covers
    subst covers
    constructor
    · intro k f'
      have before := indexed.cells k f'
      simp only [readersOf, lookup_insert, of_key_injective] at before ⊢
      by_cases here : target = k
      · subst here
        simp only [if_true, Option.getD_some, member_insert, before, and_true]
        exact or_comm
      · simp [here, before, Ne.symm here]
    · intro r' f'
      have before := indexed.ranges r' f'
      have other := of_key_single target
      simp only [rangeReadersOn] at before ⊢
      grind
  · rw [if_neg single]
    constructor
    · intro k f'
      have before := indexed.cells k f'
      have other := of_key_single k
      simp only [readersOf] at before ⊢
      grind
    · intro r' f'
      have before := indexed.ranges r' f'
      simp only [rangeReadersOn, lookup_insert] at before ⊢
      by_cases here : r.sheet = r'.sheet
      · have same : r' = r ↔ r'.range = r.range := by
          cases r
          cases r'
          simp_all
        simp only [here, if_true, Option.getD_some, List.mem_append, before, List.mem_singleton,
          Prod.mk.injEq, same]
        grind
      · simp only [here, if_false, before]
        grind

theorem unlink_indexed (g : Graph) (held : Key → SheetRange → Prop) (f : Key) (r : SheetRange)
    (indexed : g.Indexed held) :
    (g.unlink f r).Indexed fun f' r' => held f' r' ∧ ¬(f' = f ∧ r' = r) := by
  unfold unlink
  by_cases single : r.range.isSingle = true
  · have covers := single_range_eq r single
    rw [if_pos single]
    generalize (⟨r.sheet, r.range.first⟩ : Key) = target at covers
    subst covers
    constructor
    · intro k f'
      have before := indexed.cells k f'
      -- An empty set of readers is not kept; it reads like a missing one.
      have kept : ∀ readers : KeySet, (if readers.isEmpty then g.cellReaders.erase target
          else g.cellReaders.insert target readers)[k]?.getD ∅ =
            if target = k then readers else g.readersOf k := by
        intro readers
        by_cases none : readers.isEmpty = true
        · rw [if_pos none, lookup_erase]
          split <;> simp_all [Std.ExtTreeSet.isEmpty_iff, readersOf]
        · rw [if_neg none, lookup_insert]
          split <;> simp [readersOf]
      change f' ∈ (if ((g.readersOf target).erase f).isEmpty then g.cellReaders.erase target
          else g.cellReaders.insert target ((g.readersOf target).erase f))[k]?.getD ∅ ↔ _
      rw [kept, of_key_injective]
      by_cases here : target = k
      · subst here
        simp only [if_true, member_erase, before, and_true]
        exact and_comm
      · simp [here, before, Ne.symm here]
    · intro r' f'
      have before := indexed.ranges r' f'
      have other := of_key_single target
      simp only [rangeReadersOn] at before ⊢
      grind
  · rw [if_neg single]
    constructor
    · intro k f'
      have before := indexed.cells k f'
      have other := of_key_single k
      simp only [readersOf] at before ⊢
      grind
    · intro r' f'
      have before := indexed.ranges r' f'
      simp only [rangeReadersOn, lookup_insert] at before ⊢
      by_cases here : r.sheet = r'.sheet
      · have same : r' = r ↔ r'.range = r.range := by
          cases r
          cases r'
          simp_all
        simp only [here, if_true, Option.getD_some, List.mem_filter, before, same, ne_eq,
          Prod.mk.injEq, decide_eq_true_eq]
        grind
      · simp only [here, if_false, before]
        grind

theorem link_all_indexed (f : Key) (ranges : List SheetRange) (g : Graph)
    (held : Key → SheetRange → Prop) (indexed : g.Indexed held) :
    (ranges.foldl (·.link f ·) g).Indexed fun f' r' => held f' r' ∨ f' = f ∧ r' ∈ ranges := by
  induction ranges generalizing g held with
  | nil => simpa using indexed
  | cons r rest ih =>
    have later := ih (g.link f r) _ (link_indexed g held f r indexed)
    refine ⟨fun k f' => (later.cells k f').trans ?_, fun r' f' => (later.ranges r' f').trans ?_⟩
    · grind
    · grind

theorem unlink_all_indexed (f : Key) (ranges : List SheetRange) (g : Graph)
    (held : Key → SheetRange → Prop) (indexed : g.Indexed held) :
    (ranges.foldl (·.unlink f ·) g).Indexed
      fun f' r' => held f' r' ∧ ¬(f' = f ∧ r' ∈ ranges) := by
  induction ranges generalizing g held with
  | nil => simpa using indexed
  | cons r rest ih =>
    have later := ih (g.unlink f r) _ (unlink_indexed g held f r indexed)
    refine ⟨fun k f' => (later.cells k f').trans ?_, fun r' f' => (later.ranges r' f').trans ?_⟩
    · grind
    · grind

theorem link_all_forward (f : Key) (ranges : List SheetRange) (g : Graph) :
    (ranges.foldl (·.link f ·) g).precedents = g.precedents ∧
      (ranges.foldl (·.link f ·) g).addresses = g.addresses := by
  induction ranges generalizing g with
  | nil => exact ⟨rfl, rfl⟩
  | cons r rest ih =>
    obtain ⟨precedents, addresses⟩ := link_forward g f r
    exact ⟨(ih (g.link f r)).1.trans precedents, (ih (g.link f r)).2.trans addresses⟩

theorem unlink_all_forward (f : Key) (ranges : List SheetRange) (g : Graph) :
    (ranges.foldl (·.unlink f ·) g).precedents = g.precedents ∧
      (ranges.foldl (·.unlink f ·) g).addresses = g.addresses := by
  induction ranges generalizing g with
  | nil => exact ⟨rfl, rfl⟩
  | cons r rest ih =>
    obtain ⟨precedents, addresses⟩ := unlink_forward g f r
    exact ⟨(ih (g.unlink f r)).1.trans precedents, (ih (g.unlink f r)).2.trans addresses⟩

theorem set_formula_lookup (g : Graph) (f k : Key) (references : List SheetRange) :
    (g.setFormula f references).precedents[k]? =
      if f = k then some (distinct references) else g.precedents[k]? := by
  simp only [setFormula, link_all_forward, unlink_all_forward, lookup_insert]

theorem remove_formula_lookup (g : Graph) (f k : Key) :
    (g.removeFormula f).precedents[k]? = if f = k then none else g.precedents[k]? := by
  unfold removeFormula
  split
  · rename_i absent
    split
    · rename_i here
      exact here ▸ absent
    · rfl
  · simp only [unlink_all_forward, lookup_erase]

theorem set_formula_addresses (g : Graph) (f : Key) (references : List SheetRange)
    (sheet : SheetId) :
    (g.setFormula f references).addressesOn sheet =
      if f.sheet = sheet then (g.addressesOn sheet).insert f.addr else g.addressesOn sheet := by
  simp only [setFormula, addressesOn, link_all_forward, unlink_all_forward, lookup_insert]
  split
  · rename_i home
    simp [home]
  · rfl

theorem is_formula_eq (g : Graph) (k : Key) : g.isFormula k = g.precedents[k]?.isSome := by
  simp only [isFormula, Std.ExtTreeMap.mem_iff_isSome_getElem?, Bool.decide_eq_true]

theorem is_formula_set_formula (g : Graph) (f k : Key) (references : List SheetRange) :
    (g.setFormula f references).isFormula k = true ↔ f = k ∨ g.isFormula k = true := by
  rw [is_formula_eq, is_formula_eq, set_formula_lookup]
  by_cases here : f = k <;> simp [here]

theorem is_formula_remove_formula (g : Graph) (f k : Key) :
    (g.removeFormula f).isFormula k = true ↔ f ≠ k ∧ g.isFormula k = true := by
  rw [is_formula_eq, is_formula_eq, remove_formula_lookup]
  by_cases here : f = k <;> simp [here]

theorem precedents_of_set_formula (g : Graph) (f k : Key) (references : List SheetRange) :
    (g.setFormula f references).precedentsOf k =
      if f = k then distinct references else g.precedentsOf k := by
  simp only [precedentsOf, set_formula_lookup]
  split <;> rfl

theorem precedents_of_remove_formula (g : Graph) (f k : Key) :
    (g.removeFormula f).precedentsOf k = if f = k then [] else g.precedentsOf k := by
  simp only [precedentsOf, remove_formula_lookup]
  split <;> rfl

theorem indexed_of_base (g base : Graph) (held : Key → SheetRange → Prop)
    (indexed : base.Indexed held) (cells : g.cellReaders = base.cellReaders)
    (ranges : g.rangeReaders = base.rangeReaders)
    (same : ∀ f r, held f r ↔ r ∈ g.precedentsOf f) :
    g.Indexed fun f r => r ∈ g.precedentsOf f := by
  constructor
  · intro k f
    simpa only [readersOf, cells, same] using indexed.cells k f
  · intro r f
    simpa only [rangeReadersOn, ranges, same] using indexed.ranges r f

theorem empty_linked : empty.Linked := by
  refine ⟨⟨fun k f => ?_, fun r f => ?_⟩, fun k => ?_⟩
  · simp [empty, readersOf, precedentsOf]
  · simp [empty, rangeReadersOn, precedentsOf]
  · simp [empty, addressesOn, isFormula]

theorem set_formula_linked (g : Graph) (f : Key) (references : List SheetRange)
    (linked : g.Linked) : (g.setFormula f references).Linked := by
  let new := distinct references
  let old := g.precedentsOf f
  have unlinked := unlink_all_indexed f (old.filter (· ∉ new)) g _ linked.indexed
  have relinked := link_all_indexed f (new.filter (· ∉ old)) _ _ unlinked
  refine ⟨indexed_of_base _ _ _ relinked rfl rfl fun f' r => ?_, fun k => ?_⟩
  · rw [precedents_of_set_formula]
    by_cases here : f = f'
    · subst here
      simp only [true_and, List.mem_filter, decide_eq_true_eq, if_true]
      grind
    · simp [here, Ne.symm here]
  · rw [is_formula_set_formula, ← linked.listed k, set_formula_addresses]
    by_cases home : f.sheet = k.sheet
    · rw [if_pos home, member_insert]
      cases f
      cases k
      grind
    · have apart : f ≠ k := fun same => home (congrArg Key.sheet same)
      simp [home, apart]

theorem remove_formula_linked (g : Graph) (f : Key) (linked : g.Linked) :
    (g.removeFormula f).Linked := by
  cases found : g.precedents[f]? with
  | none => simpa only [removeFormula, found] using linked
  | some old =>
    have held : g.precedentsOf f = old := by simp [precedentsOf, found]
    have unlinked := unlink_all_indexed f old g _ linked.indexed
    have readers : (g.removeFormula f).cellReaders = (old.foldl (·.unlink f ·) g).cellReaders ∧
        (g.removeFormula f).rangeReaders = (old.foldl (·.unlink f ·) g).rangeReaders := by
      simp only [removeFormula, found, and_self]
    refine ⟨indexed_of_base _ _ _ unlinked readers.1 readers.2 fun f' r => ?_, fun k => ?_⟩
    · rw [precedents_of_remove_formula]
      by_cases here : f = f'
      · subst here
        simp [held]
      · simp [here, Ne.symm here]
    · rw [is_formula_remove_formula, ← linked.listed k]
      simp only [removeFormula, found, addressesOn, unlink_all_forward, lookup_insert]
      by_cases home : f.sheet = k.sheet
      · simp only [home, if_true, Option.getD_some, member_erase]
        cases f
        cases k
        grind
      · have apart : f ≠ k := fun same => home (congrArg Key.sheet same)
        simp [home, apart]

theorem mem_formulas_on_sheet (g : Graph) (linked : g.Linked) (sheet : SheetId) (k : Key) :
    k ∈ g.formulasOn sheet ↔ k.sheet = sheet ∧ g.isFormula k = true := by
  simp only [formulasOn, List.mem_map, Std.ExtTreeSet.mem_toList]
  constructor
  · rintro ⟨a, member, rfl⟩
    exact ⟨rfl, (linked.listed ⟨sheet, a⟩).mp member⟩
  · rintro ⟨rfl, formula⟩
    exact ⟨k.addr, (linked.listed k).mpr formula, rfl⟩

theorem reads_iff (g : Graph) (f k : Key) :
    g.reads f k = true ↔ ∃ r ∈ g.precedentsOf f, r.contains k = true := by
  simp [reads]

theorem nodup_dependents (g : Graph) (k : Key) : (g.dependents k).Nodup := nodup_to_list _

theorem mem_dependents (g : Graph) (linked : g.Linked) (k f : Key) :
    f ∈ g.dependents k ↔ g.reads f k = true := by
  have through (range : Range) := linked.indexed.ranges ⟨k.sheet, range⟩ f
  simp only [dependents, Std.ExtTreeSet.mem_toList, member_insert_each Prod.snd, List.mem_filter,
    linked.indexed.cells k f, reads_iff]
  constructor
  · rintro (⟨⟨range, reader⟩, ⟨member, inside⟩, rfl⟩ | direct)
    · exact ⟨⟨k.sheet, range⟩, ((through range).mp member).2, by simpa [SheetRange.contains]⟩
    · exact ⟨_, direct, (contains_of_key k k).mpr rfl⟩
  · rintro ⟨r, held, inside⟩
    by_cases single : r.range.isSingle = true
    · have covers := single_range_eq r single
      have here := (contains_of_key _ k).mp (covers ▸ inside)
      exact .inr (here ▸ covers ▸ held)
    · have placed : k.sheet = r.sheet ∧ r.range.contains k.addr = true := by
        simpa [SheetRange.contains] using inside
      refine .inl ⟨(r.range, f), ⟨?_, placed.2⟩, rfl⟩
      rw [placed.1]
      exact (linked.indexed.ranges r f).mpr ⟨by simpa using single, held⟩

end Spreadsheet.Graph
