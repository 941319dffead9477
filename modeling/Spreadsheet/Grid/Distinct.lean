-- Lists in which each member keeps its first place only.

set_option autoImplicit false

namespace Spreadsheet

variable {α : Type} [DecidableEq α]

-- The members of a list that are not in `seen`, each at its first place.
def distinctAfter (seen : List α) : List α → List α
  | [] => []
  | x :: rest => if x ∈ seen then distinctAfter seen rest else x :: distinctAfter (x :: seen) rest

def distinct (xs : List α) : List α := distinctAfter [] xs

theorem mem_distinctAfter (seen xs : List α) (x : α) :
    x ∈ distinctAfter seen xs ↔ x ∈ xs ∧ x ∉ seen := by
  induction xs generalizing seen with
  | nil => simp [distinctAfter]
  | cons y rest ih => by_cases h : y ∈ seen <;> grind [distinctAfter]

theorem mem_distinct (xs : List α) (x : α) : x ∈ distinct xs ↔ x ∈ xs := by
  simp [distinct, mem_distinctAfter]

theorem nodup_distinctAfter (seen xs : List α) : (distinctAfter seen xs).Nodup := by
  induction xs generalizing seen with
  | nil => simp [distinctAfter]
  | cons y rest ih =>
    by_cases h : y ∈ seen
    · simpa [distinctAfter, h] using ih seen
    · simp [distinctAfter, h, ih, mem_distinctAfter]

theorem nodup_distinct (xs : List α) : (distinct xs).Nodup := nodup_distinctAfter [] xs

end Spreadsheet
