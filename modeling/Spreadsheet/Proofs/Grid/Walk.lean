import Spreadsheet.Proofs.Grid.Cells

-- The walk over a range step by step: which cell comes next, how many are still to come, and where
-- it ends. The cells that it meets are numbered as positions in the range count them.

set_option autoImplicit false

namespace Spreadsheet

namespace Range

variable (r : Range)

theorem nth_injective (m n : Nat) (same : r.nth m = r.nth n) : m = n := by
  rcases Nat.lt_trichotomy m n with less | equal | more
  · have ordered := r.nth_ordered m n less
    rw [same] at ordered
    omega
  · exact equal
  · have ordered := r.nth_ordered n m more
    rw [same] at ordered
    omega

theorem cells_lookup (n : Nat) : r.cells[n]? = if n < r.size then some (r.nth n) else none := by
  by_cases below : n < r.size
  · simp [cells_eq, below]
  · simp [cells_eq, below]

theorem cells_length : r.cells.length = r.size := by simp [cells_eq]

theorem nth_index (normal : r.Normal) (n : Nat) (below : n < r.size) :
    r.index? (r.nth n) = some n := by
  obtain ⟨m, _, same, index⟩ := r.nth_of_inside (r.nth n) (r.nth_inside normal n below)
  rw [index, r.nth_injective m n same]

theorem index_none_iff (a : Address) : r.index? a = none ↔ r.contains a = false := by
  unfold index?
  cases r.contains a <;> simp

-- A position is the number of a cell of the walk.
theorem lookup_iff_index (normal : r.Normal) (a : Address) (n : Nat) :
    r.cells[n]? = some a ↔ r.index? a = some n := by
  rw [cells_lookup]
  constructor
  · intro found
    split at found
    · rename_i below
      cases found
      exact r.nth_index normal n below
    · cases found
  · intro index
    have inside : r.contains a = true := by
      cases held : r.contains a with
      | true => rfl
      | false =>
        rw [(r.index_none_iff a).mpr held] at index
        cases index
    obtain ⟨m, below, rfl, counted⟩ := r.nth_of_inside a inside
    obtain rfl : m = n := Option.some.inj (counted.symm.trans index)
    rw [if_pos below]

theorem cells_increasing : r.cells.Pairwise fun a b => compare a b = .lt := by
  refine r.cells_ordered.imp fun {a b} less => ?_
  have opened : compare a b = (compare a.row b.row).then (compare a.col b.col) := rfl
  simpa only [opened, Ordering.then_eq_lt, Nat.compare_eq_lt, Nat.compare_eq_eq,
    List.cons_lt_cons_iff, List.not_lt_nil, and_false, or_false] using less

theorem rows_le (first : r.first.Valid) (last : r.last.Valid) : r.rows ≤ maxRows := by
  obtain ⟨top, _⟩ := first
  obtain ⟨above, bottom, _⟩ := last
  rw [rows]
  omega

theorem columns_le (first : r.first.Valid) (last : r.last.Valid) : r.columns ≤ maxColumns := by
  obtain ⟨_, _, left, _⟩ := first
  obtain ⟨_, _, before, right⟩ := last
  rw [columns]
  omega

theorem size_le (first : r.first.Valid) (last : r.last.Valid) : r.size ≤ maxRows * maxColumns :=
  Nat.mul_le_mul (r.rows_le first last) (r.columns_le first last)

-- The walk goes on from each cell but the last one, which lies in the last column of the last row.
theorem after_eq (normal : r.Normal) (n : Nat) (below : n < r.size) :
    r.after? (r.nth n) = r.cells[n + 1]? := by
  rw [cells_lookup]
  by_cases more : n + 1 < r.size
  · rw [if_pos more, r.after_nth n more]
  · rw [if_neg more]
    obtain ⟨rows, columns⟩ := normal
    have height : r.rows = r.last.row - r.first.row + 1 := rfl
    have width : r.columns = r.last.col - r.first.col + 1 := rfl
    have whole : n + 1 = r.columns * r.rows := by
      rw [Nat.mul_comm]
      exact Nat.le_antisymm below (Nat.not_lt.mp more)
    have final := r.nth_succ n
    rw [whole, Nat.mul_mod_right, Nat.mul_div_cancel_left _ r.columns_pos] at final
    have edge : ¬r.first.col + n % r.columns < r.last.col := by omega
    have bottom : ¬r.first.row + n / r.columns < r.last.row := by
      generalize n / r.columns = q at final
      omega
    rw [after?, nth, if_neg edge, if_neg bottom]

-- A walk that has left so many cells behind.
structure Cursor.Passed (n : Nat) (c : Cursor) : Prop where
  range : c.range = r
  next : c.next? = r.cells[n]?
  remaining : c.remaining = r.size - n

theorem cursor_passed : Cursor.Passed r 0 r.cursor := by
  have filled : 0 < r.size := Nat.mul_pos (Nat.succ_pos _) (Nat.succ_pos _)
  refine ⟨rfl, ?_, rfl⟩
  rw [cells_lookup, if_pos filled]
  simp [cursor, nth]

variable (normal : r.Normal)
include normal

-- A step takes one from the cells still to come, of which there is at least one.
theorem advance_passed (n : Nat) (c d : Cursor) (a : Address) (passed : c.Passed r n)
    (step : c.advance? = some (a, d)) :
    r.cells[n]? = some a ∧ d.Passed r (n + 1) ∧ c.remaining = d.remaining + 1 := by
  obtain ⟨range, next, remaining⟩ := passed
  rw [Cursor.advance?, next] at step
  obtain ⟨b, found, same⟩ := Option.map_eq_some_iff.mp step
  cases same
  rw [cells_lookup] at found
  split at found
  · rename_i below
    cases found
    refine ⟨by rw [cells_lookup, if_pos below], ⟨range, ?_, ?_⟩, ?_⟩
    · rw [range]
      exact r.after_eq normal n below
    · dsimp only
      omega
    · dsimp only
      omega
  · cases found

-- At its end a walk stays where it is.
theorem take_passed (count n : Nat) (c : Cursor) (passed : c.Passed r n) :
    (c.take count).1 = (r.cells.drop n).take count ∧ (c.take count).2.Passed r (n + count) := by
  induction count generalizing n c with
  | zero => exact ⟨by simp [Cursor.take], passed⟩
  | succ count ih =>
    cases step : c.advance? with
    | none =>
      have ended : r.cells[n]? = none := by
        rw [← passed.next]
        simpa [Cursor.advance?] using step
      have beyond : r.cells.length ≤ n := List.getElem?_eq_none_iff.mp ended
      have further : r.cells[n + (count + 1)]? = none := List.getElem?_eq_none (by omega)
      have size := r.cells_length
      simp only [Cursor.take, step]
      refine ⟨by simp [List.drop_eq_nil_of_le beyond], passed.range, ?_, ?_⟩
      · rw [passed.next, ended, further]
      · rw [passed.remaining]
        omega
    | some pair =>
      obtain ⟨a, d⟩ := pair
      obtain ⟨found, later, _⟩ := r.advance_passed normal n c d a passed step
      obtain ⟨cells, final⟩ := ih (n + 1) d later
      obtain ⟨below, there⟩ := List.getElem?_eq_some_iff.mp found
      have place : n + (count + 1) = n + 1 + count := by omega
      simp only [Cursor.take, step]
      refine ⟨?_, place ▸ final⟩
      rw [cells, List.drop_eq_getElem_cons below, there, List.take_succ_cons]

omit normal

-- A walk meets exactly the cells of its range, in strictly increasing order and as many as the
-- range counts; positions are the numbers of the cells that it meets, and none lies outside. After
-- each number of steps it has met that many cells, the rest are still to come, and no step counts
-- below zero.
theorem walk_and_positions_inverse (first : r.first.Valid) (last : r.last.Valid)
    (normal : r.Normal) :
    (∀ a, a ∈ r.cells ↔ r.contains a = true) ∧
    r.cells.Pairwise (fun a b => compare a b = .lt) ∧
    (r.cells.length = r.size ∧ r.size ≤ maxRows * maxColumns) ∧
    (∀ a i, r.cells[i]? = some a ↔ r.index? a = some i) ∧
    (∀ a, r.index? a = none ↔ a ∉ r.cells) ∧
    ∀ i, ∃ c, r.cursor.take i = (r.cells.take i, c) ∧ c.next? = r.cells[i]? ∧
      c.remaining = r.size - i ∧ ∀ a d, c.advance? = some (a, d) → c.remaining = d.remaining + 1 := by
  have members := r.mem_cells normal
  refine ⟨members, r.cells_increasing, ⟨r.cells_length, r.size_le first last⟩,
    r.lookup_iff_index normal, fun a => ?_, fun i => ?_⟩
  · rw [members, index_none_iff, Bool.not_eq_true]
  · obtain ⟨met, passed⟩ := r.take_passed normal i 0 r.cursor r.cursor_passed
    rw [Nat.zero_add] at passed
    refine ⟨(r.cursor.take i).2, Prod.ext (met.trans rfl) rfl, passed.next, passed.remaining, ?_⟩
    intro a d step
    exact (r.advance_passed normal i _ d a passed step).2.2

-- The middle of three rows and three columns, the fifth of nine cells.
theorem walk_and_positions_inverse_of_nine :
    let r : Range := ⟨⟨2, 2⟩, ⟨4, 4⟩⟩
    (r.first.Valid ∧ r.last.Valid ∧ r.Normal) ∧ r.cells.length = 9 ∧
      r.cells[4]? = some ⟨3, 3⟩ ∧ r.index? ⟨3, 3⟩ = some 4 ∧ r.index? ⟨1, 3⟩ = none ∧
      ∃ c, r.cursor.take 4 = (r.cells.take 4, c) ∧ c.next? = some ⟨3, 3⟩ ∧ c.remaining = 5 := by
  intro r
  have inside : r.first.Valid ∧ r.last.Valid ∧ r.Normal := by decide
  obtain ⟨members, _, ⟨long, _⟩, positions, outside, steps⟩ :=
    walk_and_positions_inverse r inside.1 inside.2.1 inside.2.2
  have fifth : r.cells[4]? = some ⟨3, 3⟩ := (positions ⟨3, 3⟩ 4).mpr rfl
  have absent : (⟨1, 3⟩ : Address) ∉ r.cells := by
    rw [members]
    decide
  obtain ⟨c, met, next, remaining, _⟩ := steps 4
  exact ⟨inside, long, fifth, (positions ⟨3, 3⟩ 4).mp fifth, (outside ⟨1, 3⟩).mpr absent, c, met,
    next.trans fifth, remaining⟩

end Range

end Spreadsheet
