import Spreadsheet.Proofs.Grid.Lookup
import Spreadsheet.Proofs.Grid.Walk

-- What is counted of a range in unsigned words. Between the corners of a range on a sheet no
-- difference is taken from a smaller number and no count is too large for its word, so words count
-- what numbers without bound do.

set_option autoImplicit false

namespace Spreadsheet

namespace Word

-- A number that has so many bits.
def fit? (bits n : Nat) : Option Nat := if n < Nat.pow 2 bits then some n else none

def minus? (a b : Nat) : Option Nat := if b ≤ a then some (a - b) else none

theorem fit_eq (bits n : Nat) (small : n < Nat.pow 2 bits) : fit? bits n = some n := if_pos small

theorem minus_eq (a b : Nat) (less : b ≤ a) : minus? a b = some (a - b) := if_pos less

end Word

namespace Range

variable (r : Range)

def wordRows? : Option Nat := do Word.fit? 32 ((← Word.minus? r.last.row r.first.row) + 1)

def wordColumns? : Option Nat := do Word.fit? 32 ((← Word.minus? r.last.col r.first.col) + 1)

def wordSize? : Option Nat := do Word.fit? 64 ((← r.wordRows?) * (← r.wordColumns?))

-- The position of an address, if it has one and if it can be counted.
def wordIndex? (a : Address) : Option (Option Nat) :=
  if r.contains a then do
    let rows ← Word.minus? a.row r.first.row
    let columns ← Word.minus? a.col r.first.col
    let above ← Word.fit? 64 (rows * (← r.wordColumns?))
    some <$> Word.fit? 64 (above + columns)
  else some none

-- Words are enough for the range, and its corners come in the order of the cells.
structure Exact : Prop where
  rows : r.wordRows? = some r.rows
  columns : r.wordColumns? = some r.columns
  size : r.wordSize? = some r.size
  index : ∀ a, r.wordIndex? a = some (r.index? a)
  ordered : (compare r.first r.last).isLE = true

theorem compare_corners (normal : r.Normal) : (compare r.first r.last).isLE = true := by
  have inside : r.contains r.last = true :=
    (r.contains_iff r.last).mpr ⟨⟨normal.1, Nat.le_refl _⟩, normal.2, Nat.le_refl _⟩
  exact (compare_of_contains r r.last inside).1

theorem exact_of_valid (first : r.first.Valid) (last : r.last.Valid) (normal : r.Normal) :
    r.Exact := by
  obtain ⟨rows, columns⟩ := normal
  have high : r.rows < Nat.pow 2 32 := Nat.lt_of_le_of_lt (r.rows_le first last) (by decide)
  have wide : r.columns < Nat.pow 2 32 := Nat.lt_of_le_of_lt (r.columns_le first last) (by decide)
  have large : r.size < Nat.pow 2 64 := Nat.lt_of_le_of_lt (r.size_le first last) (by decide)
  have inRows : r.wordRows? = some r.rows := by
    rw [wordRows?, Word.minus_eq _ _ rows]
    exact Word.fit_eq 32 _ high
  have inColumns : r.wordColumns? = some r.columns := by
    rw [wordColumns?, Word.minus_eq _ _ columns]
    exact Word.fit_eq 32 _ wide
  refine ⟨inRows, inColumns, ?_, fun a => ?_, r.compare_corners ⟨rows, columns⟩⟩
  · rw [wordSize?, inRows, inColumns]
    exact Word.fit_eq 64 _ large
  · by_cases inside : r.contains a = true
    · obtain ⟨n, below, _, index⟩ := r.nth_of_inside a inside
      have counted : (a.row - r.first.row) * r.columns + (a.col - r.first.col) = n := by
        rw [index?, if_pos inside] at index
        exact Option.some.inj index
      obtain ⟨inRow, inColumn⟩ := (r.contains_iff a).mp inside
      rw [wordIndex?, if_pos inside, Word.minus_eq _ _ inRow.1, Word.minus_eq _ _ inColumn.1,
        inColumns, index]
      simp only [Option.bind_eq_bind, Option.bind_some]
      rw [Word.fit_eq 64 _ (by omega), Option.bind_some, counted, Word.fit_eq 64 n (by omega)]
      rfl
    · rw [wordIndex?, index?, if_neg inside, if_neg inside]

end Range

end Spreadsheet
