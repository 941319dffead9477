import Spreadsheet.Proofs.Formula.Tables

-- A table stands for a partial map from the addresses of its range. Made from any list of cells, it
-- has for every address inside the range the first value listed for it that is not empty.

set_option autoImplicit false

namespace Spreadsheet.Formula

-- The first value listed for an address that is not empty.
def firstFilled (cells : List (Address × Value)) (a : Address) : Value :=
  ((cells.find? fun e => e.1 = a && !e.2.isEmpty).map Prod.snd).getD .empty

theorem first_filled_cons (e : Address × Value) (rest : List (Address × Value)) (a : Address) :
    firstFilled (e :: rest) a =
      if e.1 = a ∧ e.2.isEmpty = false then e.2 else firstFilled rest a := by
  by_cases here : e.1 = a ∧ e.2.isEmpty = false
  · simp [firstFilled, here]
  · have passed : (e.1 = a && !e.2.isEmpty) = false := by simpa using here
    simp only [firstFilled, if_neg here, List.find?_cons, passed]

theorem kept_lookup (r : Range) (cells : List (Address × Value)) (a : Address) :
    ((cells.filter fun (a, v) => r.contains a && !v.isEmpty).lookup a).getD .empty =
      if r.contains a then firstFilled cells a else .empty := by
  induction cells with
  | nil => simp [firstFilled]
  | cons e rest ih =>
    obtain ⟨b, v⟩ := e
    rw [first_filled_cons, List.filter_cons]
    by_cases kept : (r.contains b && !v.isEmpty) = true
    · rw [if_pos kept, List.lookup_cons]
      simp only [Bool.and_eq_true, Bool.not_eq_true'] at kept
      by_cases same : a = b
      · simp [same, kept]
      · simp [beq_false_of_ne same, Ne.symm same, ih]
    · rw [if_neg kept, ih]
      by_cases here : b = a ∧ v.isEmpty = false
      · have outside : ¬r.contains a = true := fun inside => kept (by simp [here, inside])
        rw [if_neg outside, if_neg outside]
      · rw [if_neg here]

namespace RangeValues

variable (t : RangeValues)

-- Which entries a table has, what it answers for an address, and what it lists, where an empty
-- value means that the map has none.
structure StandsFor (r : Range) (view : Address → Value) : Prop where
  range : t.range = r
  ordered : t.toList.Pairwise fun e f =>
    e.1.row < f.1.row ∨ e.1.row = f.1.row ∧ e.1.col < f.1.col
  inside : ∀ e ∈ t.toList, r.contains e.1 = true
  filled : ∀ e ∈ t.toList, e.2 ≠ .empty
  get : ∀ a, t.get a = if r.contains a then view a else .empty
  listed : ∀ a v, (a, v) ∈ t.toList ↔ t.get a = v ∧ v ≠ .empty
  columns : ∀ col a v, (a, v) ∈ t.column col ↔ a.col = col ∧ t.get a = v ∧ v ≠ .empty
  downward : ∀ col, (t.column col).Pairwise fun e f => e.1.row < f.1.row

theorem mem_iff_get (proper : t.Proper) (a : Address) (v : Value) :
    (a, v) ∈ t.toList ↔ t.get a = v ∧ v ≠ .empty := by
  rw [mem_to_list, get_lookup]
  constructor
  · intro found
    refine ⟨by simp [found], fun blank => ?_⟩
    have filled := proper.filled a v found
    simp [blank, Value.isEmpty] at filled
  · intro given
    obtain ⟨value, filled⟩ := given
    cases found : t.cells[a]? with
    | none => exact absurd (by simpa [found] using value.symm) filled
    | some w => simpa [found] using value

theorem column_downward (col : Nat) :
    (t.column col).Pairwise fun e f => e.1.row < f.1.row := by
  refine List.pairwise_filter.mpr (t.rows_ordered.imp fun {e f} less first second => ?_)
  simp only [decide_eq_true_eq] at first second
  omega

end RangeValues

theorem stands_for_unique (t u : RangeValues) (r : Range) (view : Address → Value)
    (first : t.StandsFor r view) (second : u.StandsFor r view) : t = u := by
  refine range_values_ext t u (first.range.trans second.range.symm) fun a => ?_
  have same : t.get a = u.get a := (first.get a).trans (second.get a).symm
  refine Option.ext fun v => ?_
  rw [cells_lookup, cells_lookup, first.listed, second.listed, same]

theorem tables_are_partial_maps (r : Range) (cells : List (Address × Value)) :
    (RangeValues.ofList r cells).StandsFor r (firstFilled cells) ∧
      ∀ t : RangeValues, t.StandsFor r (firstFilled cells) → t = .ofList r cells := by
  have proper := RangeValues.of_list_proper r cells
  have stands : (RangeValues.ofList r cells).StandsFor r (firstFilled cells) :=
    { range := rfl
      ordered := RangeValues.rows_ordered _
      inside := fun (a, v) member => proper.inside a v ((RangeValues.mem_to_list _ _).mp member)
      filled := fun (a, v) member => ((RangeValues.mem_iff_get _ proper a v).mp member).2
      get := fun a => by rw [get_lookup, of_list_lookup, kept_lookup]
      listed := RangeValues.mem_iff_get _ proper
      columns := fun col a v => by
        rw [RangeValues.column, List.mem_filter, RangeValues.mem_iff_get _ proper]
        simp [and_comm]
      downward := RangeValues.column_downward _ }
  exact ⟨stands, fun t other => stands_for_unique t _ r _ other stands⟩

-- The first entry for the corner is empty, and one entry is outside.
theorem tables_are_partial_maps_of_repeated_cells :
    let r : Range := ⟨⟨1, 1⟩, ⟨3, 2⟩⟩
    let cells : List (Address × Value) := [(⟨2, 2⟩, .boolean true), (⟨1, 1⟩, .empty),
      (⟨1, 3⟩, .text "outside"), (⟨1, 1⟩, .text "first"), (⟨1, 1⟩, .text "second")]
    let t := RangeValues.ofList r cells
    t.StandsFor r (firstFilled cells) ∧
      t.toList.map (fun e => (e.1, e.2.toText)) = [(⟨1, 1⟩, "first"), (⟨2, 2⟩, "TRUE")] ∧
        (t.column 1).map Prod.fst = [⟨1, 1⟩] ∧ (t.get ⟨1, 1⟩).toText = "first" := by
  intro r cells t
  have stands := (tables_are_partial_maps r cells).1
  exact ⟨stands, by decide +kernel, by decide +kernel, by decide +kernel⟩

end Spreadsheet.Formula
