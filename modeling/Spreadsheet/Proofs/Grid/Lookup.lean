import Spreadsheet.Grid.Key

-- Look-ups in maps and sets whose order tells unequal keys apart, the place of a range in that
-- order, and the ranges of one cell.

set_option autoImplicit false

namespace Spreadsheet

section Lookup

variable {κ β : Type} [Ord κ] [Std.TransOrd κ] [Std.LawfulEqOrd κ]

theorem lookup_insert [DecidableEq κ] (m : Std.ExtTreeMap κ β) (k a : κ) (v : β) :
    (m.insert k v)[a]? = if k = a then some v else m[a]? := by
  simp only [Std.ExtTreeMap.getElem?_insert, Std.LawfulEqCmp.compare_eq_iff_eq]

theorem lookup_erase [DecidableEq κ] (m : Std.ExtTreeMap κ β) (k a : κ) :
    (m.erase k)[a]? = if k = a then none else m[a]? := by
  simp only [Std.ExtTreeMap.getElem?_erase, Std.LawfulEqCmp.compare_eq_iff_eq]

omit [Std.LawfulEqOrd κ] in
theorem member_of_lookup (m : Std.ExtTreeMap κ β) (k : κ) (v : β) (found : m[k]? = some v) :
    k ∈ m := Std.ExtTreeMap.mem_iff_isSome_getElem?.mpr (by simp [found])

omit [Std.LawfulEqOrd κ] in
theorem lookup_of_member (m : Std.ExtTreeMap κ β) (k : κ) (held : k ∈ m) :
    ∃ v, m[k]? = some v :=
  Option.isSome_iff_exists.mp (Std.ExtTreeMap.mem_iff_isSome_getElem?.mp held)

theorem member_insert_key [DecidableEq κ] (m : Std.ExtTreeMap κ β) (k a : κ) (v : β) :
    a ∈ m.insert k v ↔ k = a ∨ a ∈ m := by
  rw [Std.ExtTreeMap.mem_insert, Std.LawfulEqCmp.compare_eq_iff_eq]

theorem member_insert (s : Std.ExtTreeSet κ) (k a : κ) : a ∈ s.insert k ↔ a = k ∨ a ∈ s := by
  rw [Std.ExtTreeSet.mem_insert, Std.LawfulEqCmp.compare_eq_iff_eq, eq_comm]

theorem member_erase (s : Std.ExtTreeSet κ) (k a : κ) : a ∈ s.erase k ↔ a ≠ k ∧ a ∈ s := by
  rw [Std.ExtTreeSet.mem_erase, ne_eq, Std.LawfulEqCmp.compare_eq_iff_eq, eq_comm]

theorem member_insert_each {α : Type} (key : α → κ) (list : List α) (s : Std.ExtTreeSet κ)
    (a : κ) : a ∈ list.foldl (fun s x => s.insert (key x)) s ↔ (∃ x ∈ list, key x = a) ∨ a ∈ s := by
  induction list generalizing s with
  | nil => simp
  | cons x rest ih =>
    rw [List.foldl_cons, ih, member_insert]
    grind

theorem member_erase_all (list : List κ) (s : Std.ExtTreeSet κ) (a : κ) :
    a ∈ list.foldl (·.erase ·) s ↔ a ∉ list ∧ a ∈ s := by
  induction list generalizing s with
  | nil => simp
  | cons x rest ih =>
    rw [List.foldl_cons, ih, member_erase, List.mem_cons]
    grind

theorem nodup_to_list (s : Std.ExtTreeSet κ) : s.toList.Nodup := by
  refine (Std.ExtTreeSet.distinct_toList (t := s)).imp fun {a b} apart => ?_
  rintro rfl
  simp at apart

theorem member_insert_all (list : List κ) (s : Std.ExtTreeSet κ) (a : κ) :
    a ∈ list.foldl (·.insert ·) s ↔ a ∈ list ∨ a ∈ s := by
  simpa using member_insert_each id list s a

end Lookup

-- A list strictly sorted by a rank is known by its members.
theorem sorted_unique {α : Type} (rank : α → List Nat) (first second : List α)
    (sortedFirst : first.Pairwise fun a b => rank a < rank b)
    (sortedSecond : second.Pairwise fun a b => rank a < rank b)
    (same : ∀ k, k ∈ first ↔ k ∈ second) : first = second := by
  have distinct (list : List α) (sorted : list.Pairwise fun a b => rank a < rank b) :
      list.Nodup := sorted.imp fun {a b} less same => by
    rw [same] at less
    exact List.lt_irrefl _ less
  refine List.Perm.eq_of_pairwise (fun a b _ _ less more => ?_) sortedFirst sortedSecond
    ((List.perm_ext_iff_of_nodup (distinct _ sortedFirst) (distinct _ sortedSecond)).mpr same)
  exact absurd more (List.lt_asymm less)

theorem to_list_sorted (s : KeySet) : s.toList.Pairwise fun a b => a.place < b.place :=
  Std.ExtTreeSet.ordered_toList.imp fun {a b} less => (Key.compare_lt_iff a b).mp less

-- Row by row, every cell of a range lies between its corners.
theorem compare_of_contains (r : Range) (a : Address) (inside : r.contains a = true) :
    (compare r.first a).isLE = true ∧ (compare a r.last).isLE = true := by
  simp only [Range.contains, Bool.and_eq_true, decide_eq_true_eq] at inside
  have rows (a b : Address) : compare a b = (compare a.row b.row).then (compare a.col b.col) := rfl
  simp only [rows, Ordering.isLE_then_iff_and, Nat.isLE_compare, Nat.compare_eq_lt]
  omega

theorem key_between_corners (r : SheetRange) (k : Key) (inside : r.contains k = true) :
    (compare ⟨r.sheet, r.range.first⟩ k).isLE = true ∧
      (compare k ⟨r.sheet, r.range.last⟩).isLE = true := by
  simp only [SheetRange.contains, Bool.and_eq_true, decide_eq_true_eq] at inside
  obtain ⟨after, before⟩ := compare_of_contains r.range k.addr inside.2
  have sheets (a b : Key) : compare a b = (compare a.sheet b.sheet).then (compare a.addr b.addr) :=
    rfl
  have home : compare r.sheet r.sheet = .eq := (SheetId.compare_eq_iff _ _).mpr rfl
  rw [sheets, sheets, inside.1, home]
  exact ⟨after, before⟩

theorem contains_of_key (k p : Key) : (SheetRange.ofKey k).contains p = true ↔ p = k := by
  cases k with
  | mk sheet addr =>
    cases addr
    cases p with
    | mk other place =>
      cases place
      simp only [SheetRange.contains, SheetRange.ofKey, Range.single, Range.contains]
      grind

theorem single_range_eq (r : SheetRange) (single : r.range.isSingle = true) :
    r = .ofKey ⟨r.sheet, r.range.first⟩ := by
  cases r with
  | mk sheet range =>
    cases range
    simp_all [Range.isSingle, SheetRange.ofKey, Range.single]

theorem of_key_single (k : Key) : (SheetRange.ofKey k).range.isSingle = true := by
  simp [SheetRange.ofKey, Range.single, Range.isSingle]

theorem of_key_injective (k p : Key) : SheetRange.ofKey k = .ofKey p ↔ k = p := by
  cases k
  cases p
  simp [SheetRange.ofKey, Range.single]

end Spreadsheet
