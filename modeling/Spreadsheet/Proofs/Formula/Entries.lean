import Spreadsheet.Formula.Entries

-- Sorting and the removal of repeated addresses change no lookup: for every address the first of
-- its entries stays the first. In entries that ascend, binary search finds what is there.

set_option autoImplicit false

namespace Spreadsheet.Formula.Entries

section Lookup

variable (a : Address)

theorem insert_lookup (e : Address × Value) (list : List (Address × Value)) :
    (insert e list).lookup a = (e :: list).lookup a := by
  obtain ⟨b, v⟩ := e
  induction list with
  | nil => rfl
  | cons f rest ih =>
    obtain ⟨c, w⟩ := f
    by_cases here : inOrder (b, v) (c, w) = true
    · rw [insert, if_pos here]
    · have apart : b ≠ c := fun same => here (by simp [inOrder, same])
      rw [insert, if_neg here, List.lookup_cons, ih]
      simp only [List.lookup_cons]
      by_cases found : a = b
      · simp [found, beq_false_of_ne apart]
      · simp [beq_false_of_ne found]

theorem sort_lookup (entries : List (Address × Value)) :
    (sort entries).lookup a = entries.lookup a := by
  induction entries with
  | nil => rfl
  | cons e rest ih =>
    obtain ⟨b, v⟩ := e
    calc (sort ((b, v) :: rest)).lookup a = ((b, v) :: sort rest).lookup a :=
          insert_lookup a (b, v) (sort rest)
      _ = ((b, v) :: rest).lookup a := by simp only [List.lookup_cons, ih]

theorem firsts_lookup (entries : List (Address × Value)) :
    (firsts entries).lookup a = entries.lookup a := by
  cases entries with
  | nil => rfl
  | cons e rest =>
    induction rest generalizing e with
    | nil => rfl
    | cons f rest ih =>
      obtain ⟨b, v⟩ := e
      obtain ⟨c, w⟩ := f
      rw [firsts_cons]
      by_cases same : b = c
      · rw [if_pos same, ih]
        subst same
        simp only [List.lookup_cons]
        cases a == b <;> rfl
      · rw [if_neg same, List.lookup_cons, ih]
        simp only [List.lookup_cons]

end Lookup

section Search

theorem address_of_neither (e f : Address × Value) (less : ¬before e f = true)
    (more : ¬before f e = true) : e.1 = f.1 := by
  simp only [before, decide_eq_true_eq] at less more
  cases order : compare e.1 f.1 with
  | lt => exact absurd order less
  | eq => exact Std.LawfulEqOrd.eq_of_compare order
  | gt => exact absurd (Std.OrientedCmp.lt_of_gt order) more

variable (entries : Array (Address × Value)) (ascending : Ascending entries.toList)
include ascending

section Middle

variable (k : Address × Value) (i m : Nat) (place : i < entries.size) (middle : m < entries.size)

theorem before_of_lt (less : i < m) : compare entries[i].1 entries[m].1 = .lt := by
  have ordered := List.pairwise_iff_getElem.mp ascending i m place middle less
  simpa [before] using ordered

variable (found : entries[i].1 = k.1)
include found

-- What is sought lies on the side of the middle entry to which the search turns.
theorem sought_after (turn : before entries[m] k = true) : m < i := by
  simp only [before, decide_eq_true_eq, ← found] at turn
  refine Nat.lt_of_not_le fun behind => ?_
  rcases Nat.lt_or_eq_of_le behind with less | same
  · exact Std.OrientedCmp.not_lt_of_lt turn
      (before_of_lt entries ascending i m place middle less)
  · subst same
    simp at turn

theorem sought_before (turn : before k entries[m] = true) : i < m := by
  simp only [before, decide_eq_true_eq, ← found] at turn
  refine Nat.lt_of_not_le fun ahead => ?_
  rcases Nat.lt_or_eq_of_le ahead with less | same
  · exact Std.OrientedCmp.not_lt_of_lt turn
      (before_of_lt entries ascending m i middle place less)
  · subst same
    simp at turn

theorem sought_there (less : ¬before entries[m] k = true) (more : ¬before k entries[m] = true) :
    i = m := by
  have same := found.trans (address_of_neither entries[m] k less more).symm
  rcases Nat.lt_trichotomy i m with earlier | here | later
  · have apart := before_of_lt entries ascending i m place middle earlier
    simp [same] at apart
  · exact here
  · have apart := before_of_lt entries ascending m i middle place later
    simp [same] at apart

end Middle

-- The search loses no entry for the address: each turn keeps the part of the window that has it.
theorem search_window (k e : Address × Value) (low : Fin (entries.size + 1))
    (high : Fin entries.size) (window : low.1 ≤ high.1) :
    entries.binSearchAux before id k low high window = some e ↔
      ∃ i, ∃ place : i < entries.size, low ≤ i ∧ i ≤ high.1 ∧ entries[i] = e ∧ e.1 = k.1 := by
  fun_induction Array.binSearchAux before id entries k low high window with
  | case1 low high window m middle turn inner bound ih =>
    refine ih.trans ⟨fun found => ?_, fun found => ?_⟩
    · obtain ⟨i, place, above, below, here, same⟩ := found
      have after : m + 1 ≤ i := above
      exact ⟨i, place, by omega, below, here, same⟩
    · obtain ⟨i, place, above, below, here, same⟩ := found
      have after := sought_after entries ascending k i m place (by omega) (here ▸ same) turn
      exact ⟨i, place, after, below, here, same⟩
  | case2 low high window m middle turn edge =>
    simp only [id_eq, reduceCtorEq, false_iff]
    intro found
    obtain ⟨i, place, above, below, here, same⟩ := found
    have after := sought_after entries ascending k i m place (by omega) (here ▸ same) turn
    omega
  | case3 low high window m middle other turn edge =>
    simp only [id_eq, reduceCtorEq, false_iff]
    intro found
    obtain ⟨i, place, above, below, here, same⟩ := found
    have earlier := sought_before entries ascending k i m place (by omega) (here ▸ same) turn
    omega
  | case4 low high window m middle other turn inner bound ih =>
    refine ih.trans ⟨fun found => ?_, fun found => ?_⟩
    · obtain ⟨i, place, above, below, here, same⟩ := found
      have earlier : i ≤ m - 1 := below
      exact ⟨i, place, above, by omega, here, same⟩
    · obtain ⟨i, place, above, below, here, same⟩ := found
      have earlier := sought_before entries ascending k i m place (by omega) (here ▸ same) turn
      exact ⟨i, place, above, Nat.le_sub_one_of_lt earlier, here, same⟩
  | case5 low high window m middle less more =>
    simp only [id_eq, Option.some.injEq]
    constructor
    · intro here
      have same : e.1 = k.1 := here ▸ address_of_neither middle k less more
      exact ⟨m, by omega, by omega, by omega, here, same⟩
    · intro found
      obtain ⟨i, place, above, below, here, same⟩ := found
      have there := sought_there entries ascending k i m place (by omega) (here ▸ same) less more
      subst there
      exact here

theorem find_some_iff (a : Address) (e : Address × Value) :
    find? entries a = some e ↔ e ∈ entries.toList ∧ e.1 = a := by
  rw [Array.mem_toList_iff, Array.mem_iff_getElem]
  by_cases filled : 0 < entries.size
  · have searched : find? entries a = entries.binSearchAux before id (a, .empty) ⟨0, by omega⟩
        ⟨entries.size - 1, by omega⟩ (Nat.zero_le _) := by
      simp [find?, Array.binSearch, filled]
    rw [searched, search_window entries ascending]
    constructor
    · intro found
      obtain ⟨i, place, _, _, here, same⟩ := found
      exact ⟨⟨i, place, here⟩, same⟩
    · intro found
      obtain ⟨⟨i, place, here⟩, same⟩ := found
      exact ⟨i, place, Nat.zero_le i, Nat.le_sub_one_of_lt place, here, same⟩
  · have missing : find? entries a = none := by simp [find?, Array.binSearch, filled]
    rw [missing]
    simp only [reduceCtorEq, false_iff]
    intro found
    obtain ⟨⟨i, place, _⟩, _⟩ := found
    omega

end Search

end Spreadsheet.Formula.Entries
