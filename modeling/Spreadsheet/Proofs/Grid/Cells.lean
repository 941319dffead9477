import Spreadsheet.Grid.Key

-- The walk over a range meets its cells in the order of their numbers, counted row by row.

set_option autoImplicit false

namespace Spreadsheet

namespace Range

variable (r : Range)

-- The cell with so many cells of the range before it.
def nth (n : Nat) : Address := ⟨r.first.row + n / r.columns, r.first.col + n % r.columns⟩

theorem columns_pos : 0 < r.columns := Nat.succ_pos _

theorem column_lt (n : Nat) : n % r.columns < r.columns := Nat.mod_lt n r.columns_pos

theorem row_lt (n : Nat) (below : n < r.size) : n / r.columns < r.rows :=
  Nat.div_lt_of_lt_mul (Nat.mul_comm r.rows r.columns ▸ below)

-- The next cell is the one to the right, or the first one of the next row.
theorem nth_succ (n : Nat) :
    (n + 1) % r.columns = n % r.columns + 1 ∧ (n + 1) / r.columns = n / r.columns ∧
        n % r.columns + 1 < r.columns ∨
      (n + 1) % r.columns = 0 ∧ (n + 1) / r.columns = n / r.columns + 1 ∧
        n % r.columns + 1 = r.columns := by
  have split := Nat.div_add_mod n r.columns
  have bound := r.column_lt n
  have positive := r.columns_pos
  by_cases inner : n % r.columns + 1 < r.columns
  · refine .inl ⟨?_, ?_, inner⟩
    · rw [← split, Nat.add_assoc, Nat.mul_add_mod, Nat.mod_eq_of_lt inner, Nat.mul_add_mod,
        Nat.mod_mod]
    · rw [← split, Nat.add_assoc, Nat.mul_add_div positive, Nat.div_eq_of_lt inner,
        Nat.mul_add_div positive, Nat.div_eq_of_lt bound]
  · have last : n % r.columns + 1 = r.columns := by omega
    have next : n + 1 = r.columns * (n / r.columns + 1) := by
      rw [Nat.mul_add, Nat.mul_one]
      omega
    refine .inr ⟨?_, ?_, last⟩
    · rw [next, Nat.mul_mod_right]
    · rw [next, Nat.mul_div_cancel_left _ positive]

theorem after_nth (n : Nat) (below : n + 1 < r.size) : r.after? (r.nth n) = some (r.nth (n + 1)) := by
  have rows := r.row_lt (n + 1) below
  have columns : r.columns = r.last.col - r.first.col + 1 := rfl
  have height : r.rows = r.last.row - r.first.row + 1 := rfl
  rcases r.nth_succ n with ⟨right, same, inner⟩ | ⟨start, down, edge⟩
  · have before : r.first.col + n % r.columns < r.last.col := by omega
    simp only [after?, nth, if_pos before, right, same, Nat.add_assoc]
  · have full : ¬r.first.col + n % r.columns < r.last.col := by omega
    have under : r.first.row + n / r.columns < r.last.row := by
      rw [down] at rows
      generalize n / r.columns = q at rows
      omega
    simp only [after?, nth, if_neg full, if_pos under, start, down, Nat.add_zero, Nat.add_assoc]

theorem take_from (count n left : Nat) (enough : n + count ≤ r.size) :
    (Cursor.take count ⟨r, some (r.nth n), left⟩).1 = (List.range' n count).map r.nth := by
  induction count generalizing n left with
  | zero => rfl
  | succ count ih =>
    rw [List.range'_succ, List.map_cons, Cursor.take]
    simp only [Cursor.advance?, Option.map_some, List.cons.injEq, true_and]
    cases count with
    | zero => rfl
    | succ further =>
      rw [r.after_nth n (by omega)]
      exact ih (n + 1) (left - 1) (by omega)

theorem cells_eq : r.cells = (List.range r.size).map r.nth := by
  have first : r.nth 0 = r.first := by simp [nth]
  rw [cells, cursor, ← first, r.take_from r.size 0 r.size (by omega), List.range_eq_range']

theorem nth_ordered (m n : Nat) (less : m < n) : (r.nth m).row < (r.nth n).row ∨
    (r.nth m).row = (r.nth n).row ∧ (r.nth m).col < (r.nth n).col := by
  have first := Nat.div_add_mod m r.columns
  have second := Nat.div_add_mod n r.columns
  have rows : m / r.columns ≤ n / r.columns := Nat.div_le_div_right (Nat.le_of_lt less)
  simp only [nth]
  by_cases same : m / r.columns = n / r.columns
  · rw [same] at first
    omega
  · omega

theorem contains_iff (a : Address) : r.contains a = true ↔
    (r.first.row ≤ a.row ∧ a.row ≤ r.last.row) ∧ r.first.col ≤ a.col ∧ a.col ≤ r.last.col := by
  simp only [contains, Bool.and_eq_true, decide_eq_true_eq, and_assoc]

theorem normal_of_contains (a : Address) (inside : r.contains a = true) : r.Normal := by
  rw [contains_iff] at inside
  exact ⟨Nat.le_trans inside.1.1 inside.1.2, Nat.le_trans inside.2.1 inside.2.2⟩

theorem nth_inside (normal : r.Normal) (n : Nat) (below : n < r.size) : r.contains (r.nth n) = true := by
  obtain ⟨rows, columns⟩ := normal
  have row := r.row_lt n below
  have column := r.column_lt n
  have height : r.rows = r.last.row - r.first.row + 1 := rfl
  have width : r.columns = r.last.col - r.first.col + 1 := rfl
  rw [contains_iff]
  simp only [nth]
  generalize n / r.columns = q at row
  generalize n % r.columns = s at column
  omega

theorem nth_of_inside (a : Address) (inside : r.contains a = true) :
    ∃ n < r.size, r.nth n = a ∧ r.index? a = some n := by
  have index : r.index? a =
      some (r.columns * (a.row - r.first.row) + (a.col - r.first.col)) := by
    rw [index?, if_pos inside, Nat.mul_comm]
  rw [contains_iff] at inside
  have height : r.rows = r.last.row - r.first.row + 1 := rfl
  have width : r.columns = r.last.col - r.first.col + 1 := rfl
  have column : a.col - r.first.col < r.columns := by omega
  have row : a.row - r.first.row < r.rows := by omega
  refine ⟨r.columns * (a.row - r.first.row) + (a.col - r.first.col), ?_, ?_, index⟩
  · have through : r.columns * (a.row - r.first.row + 1) ≤ r.columns * r.rows :=
      Nat.mul_le_mul_left _ row
    rw [Nat.mul_add, Nat.mul_one] at through
    rw [size, Nat.mul_comm r.rows]
    omega
  · have positive := r.columns_pos
    simp only [nth, Nat.mul_add_div positive, Nat.div_eq_of_lt column, Nat.mul_add_mod,
      Nat.mod_eq_of_lt column]
    cases a
    simp only [Address.mk.injEq] at *
    omega

theorem mem_cells (normal : r.Normal) (a : Address) : a ∈ r.cells ↔ r.contains a = true := by
  rw [cells_eq, List.mem_map]
  constructor
  · rintro ⟨n, member, rfl⟩
    exact r.nth_inside normal n (List.mem_range.mp member)
  · intro inside
    obtain ⟨n, below, same, _⟩ := r.nth_of_inside a inside
    exact ⟨n, List.mem_range.mpr below, same⟩

theorem cells_ordered : r.cells.Pairwise fun a b => [a.row, a.col] < [b.row, b.col] := by
  rw [cells_eq, List.pairwise_map]
  refine List.pairwise_lt_range.imp fun {m n} less => ?_
  have ordered := r.nth_ordered m n less
  simpa [List.cons_lt_cons_iff] using ordered

-- The number of cells before an address is its place in the walk.
theorem index_eq (a : Address) (inside : r.contains a = true) :
    r.index? a = some (r.cells.idxOf a) := by
  obtain ⟨n, below, rfl, index⟩ := r.nth_of_inside a inside
  have distinct : r.cells.Nodup := r.cells_ordered.imp fun {a b} less same => by
    rw [same] at less
    exact List.lt_irrefl _ less
  have long : n < r.cells.length := by simpa [cells_eq] using below
  have there : r.cells[n] = r.nth n := by simp [cells_eq]
  rw [index, ← there, distinct.idxOf_getElem]

end Range

-- The cells of a range, row by row.
structure SheetRange.Lists (r : SheetRange) (keys : List Key) : Prop where
  members : ∀ k, k ∈ keys ↔ r.contains k = true
  ordered : keys.Pairwise fun a b => a.place < b.place

theorem SheetRange.lists_keys (r : SheetRange) (normal : r.range.Normal) : r.Lists r.keys := by
  refine ⟨fun k => ?_, ?_⟩
  · simp only [keys, contains, List.mem_map, r.range.mem_cells normal, Bool.and_eq_true,
      decide_eq_true_eq]
    constructor
    · rintro ⟨a, inside, rfl⟩
      exact ⟨rfl, inside⟩
    · rintro ⟨home, inside⟩
      exact ⟨k.addr, inside, by rw [← home]⟩
  · rw [keys, List.pairwise_map]
    refine r.range.cells_ordered.imp fun {a b} less => ?_
    simpa [Key.place, List.cons_lt_cons_iff] using less

end Spreadsheet
