import Spreadsheet.Formula.Contents
import Spreadsheet.Proofs.Formula.Entries
import Spreadsheet.Proofs.Grid.Cells
import Spreadsheet.Proofs.Grid.Lookup

-- The values of a range as a table: which cells it has, and in which order it lists them. A table
-- made from some cells of a range is the same as one made from all of them, where the others are
-- empty. It lists the cells of the range row by row, without the empty ones.

set_option autoImplicit false

namespace Spreadsheet

open Formula

theorem lookup_of_mem (entries : List (Address × Value)) (a : Address) (found? : Option Value)
    (listed : ∀ v, (a, v) ∈ entries ↔ found? = some v) : entries.lookup a = found? := by
  cases found : entries.lookup a with
  | some v =>
    obtain ⟨before, after, split, _⟩ := List.lookup_eq_some_iff.mp found
    exact ((listed v).mp (by simp [split])).symm
  | none =>
    have absent := List.lookup_eq_none_iff.mp found
    cases known : found? with
    | none => rfl
    | some v => simpa using absent _ ((listed v).mpr known)

-- A table as the map from addresses that it stands for.
def Formula.RangeValues.cells (t : RangeValues) : Std.ExtTreeMap Address Value := .ofList t.toList

theorem cells_lookup (t : RangeValues) (a : Address) (v : Value) :
    t.cells[a]? = some v ↔ (a, v) ∈ t.toList := by
  have distinct : t.toList.Pairwise fun e f => ¬compare e.1 f.1 = .eq :=
    t.ascending.imp fun {e f} less same => by simp [Entries.before, same] at less
  have held (w : Value) (member : (a, w) ∈ t.toList) : t.cells[a]? = some w :=
    Std.ExtTreeMap.getElem?_ofList_of_mem Std.ReflCmp.compare_self distinct member
  constructor
  · intro found
    have listed : a ∈ t.toList.map Prod.fst := by
      simpa using Std.ExtTreeMap.mem_ofList.mp (member_of_lookup t.cells a v found)
    obtain ⟨⟨b, w⟩, member, rfl⟩ := List.mem_map.mp listed
    have same : w = v := Option.some.inj ((held w member).symm.trans found)
    exact same ▸ member
  · exact held v

theorem get_lookup (t : RangeValues) (a : Address) : t.get a = t.cells[a]?.getD .empty := by
  have found (e : Address × Value) := Entries.find_some_iff t.entries t.ascending a e
  rw [RangeValues.get]
  cases searched : Entries.find? t.entries a with
  | some e =>
    obtain ⟨member, rfl⟩ := (found e).mp searched
    rw [(cells_lookup t e.1 e.2).mpr member]
    rfl
  | none =>
    cases held : t.cells[a]? with
    | none => rfl
    | some v =>
      have there := (found (a, v)).mpr ⟨(cells_lookup t a v).mp held, rfl⟩
      cases searched.symm.trans there

theorem of_list_lookup (range : Range) (entries : List (Address × Value)) (a : Address) :
    (RangeValues.ofList range entries).cells[a]? =
      (entries.filter fun (a, v) => range.contains a && !v.isEmpty).lookup a := by
  let kept := entries.filter fun (a, v) => range.contains a && !v.isEmpty
  have listed : (Entries.firsts (Entries.sort kept)).lookup a =
      (RangeValues.ofList range entries).cells[a]? :=
    lookup_of_mem _ a _ fun v => (cells_lookup (.ofList range entries) a v).symm
  rw [← listed, Entries.firsts_lookup, Entries.sort_lookup]

theorem Address.compare_lt_iff (a b : Address) :
    compare a b = .lt ↔ a.row < b.row ∨ a.row = b.row ∧ a.col < b.col := by
  have same : compare a b = (compare a.row b.row).then (compare a.col b.col) := rfl
  rw [same, Ordering.then_eq_lt, Nat.compare_eq_lt, Nat.compare_eq_lt, Nat.compare_eq_eq]

theorem Formula.RangeValues.rows_ordered (t : RangeValues) : t.toList.Pairwise fun e f =>
    e.1.row < f.1.row ∨ e.1.row = f.1.row ∧ e.1.col < f.1.col := by
  refine t.ascending.imp fun {e f} less => (Address.compare_lt_iff e.1 f.1).mp ?_
  simpa [Entries.before] using less

theorem Formula.RangeValues.to_list_ordered (t : RangeValues) :
    t.toList.Pairwise fun e f => [e.1.row, e.1.col] < [f.1.row, f.1.col] :=
  t.rows_ordered.imp fun {e f} less => by simpa [List.cons_lt_cons_iff] using less

theorem range_values_ext (s t : RangeValues) (range : s.range = t.range)
    (cells : ∀ a : Address, s.cells[a]? = t.cells[a]?) : s = t := by
  have same : s.toList = t.toList := by
    refine sorted_unique (fun e => [e.1.row, e.1.col]) _ _ s.to_list_ordered t.to_list_ordered
      fun (a, v) => ?_
    rw [← cells_lookup, ← cells_lookup, cells]
  cases s
  cases t
  cases range
  cases Array.toList_inj.mp same
  rfl

namespace Formula

section Tables

variable (r : SheetRange) (view : Key → Value) (a : Address)

-- The cells of a range that are not empty, with their values.
structure Tells (r : SheetRange) (view : Key → Value) (t : RangeValues) : Prop where
  range : t.range = r.range
  cells : ∀ a : Address, t.cells[a]? =
    if r.range.contains a = true ∧ (view ⟨r.sheet, a⟩).isEmpty = false then
      some (view ⟨r.sheet, a⟩) else none

theorem tells_of_keys (keys : List Key) (home : ∀ k ∈ keys, k.sheet = r.sheet)
    (rest : ∀ k, r.contains k = true → k ∉ keys → view k = .empty) :
    Tells r view (.ofList r.range (keys.map fun k => (k.addr, view k))) := by
  refine ⟨rfl, fun a => ?_⟩
  rw [of_list_lookup]
  refine lookup_of_mem _ a _ fun v => ?_
  have listed : (a, v) ∈ keys.map (fun k => (k.addr, view k)) ↔
      ⟨r.sheet, a⟩ ∈ keys ∧ view ⟨r.sheet, a⟩ = v := by
    simp only [List.mem_map, Prod.mk.injEq]
    constructor
    · intro listed
      obtain ⟨k, member, rfl, rfl⟩ := listed
      rw [← home k member]
      exact ⟨member, rfl⟩
    · intro kept
      obtain ⟨member, rfl⟩ := kept
      exact ⟨_, member, rfl, rfl⟩
  have covers : r.contains ⟨r.sheet, a⟩ = r.range.contains a := by simp [SheetRange.contains]
  rw [List.mem_filter, listed, ← covers]
  by_cases member : (⟨r.sheet, a⟩ : Key) ∈ keys
  · grind
  · have blank := rest ⟨r.sheet, a⟩
    grind [Value.isEmpty]

theorem tells_of_range : Tells r view (.ofList r.range (r.keys.map fun k => (k.addr, view k))) := by
  refine tells_of_keys r view r.keys (fun k member => ?_) fun k inside absent => ?_
  · obtain ⟨_, _, rfl⟩ := List.mem_map.mp member
    rfl
  · have covered : r.range.contains k.addr = true := by simp_all [SheetRange.contains]
    have lists := r.lists_keys (r.range.normal_of_contains k.addr covered)
    exact absurd ((lists.members k).mpr inside) absent

variable {r view} in
theorem Tells.get_eq {t : RangeValues} (tells : Tells r view t)
    (inside : r.range.contains a = true) : t.get a = view ⟨r.sheet, a⟩ := by
  have found := tells.cells a
  rw [get_lookup, found]
  by_cases filled : (view ⟨r.sheet, a⟩).isEmpty = false
  · rw [if_pos ⟨inside, filled⟩, Option.getD_some]
  · rw [if_neg fun both => filled both.2, Option.getD_none]
    cases held : view ⟨r.sheet, a⟩ with
    | empty => rfl
    | _ => exact absurd (by rw [held]; rfl) filled

theorem contents_tell (c : Contents) : Tells r c.value (c.rangeValues r) := by
  have listed (e : Key × Value) : e ∈ c.cells.toList ↔ c.cells[e.1]? = some e.2 :=
    Std.ExtTreeMap.mem_toList_iff_getElem?_eq_some
  have keyed : c.rangeValues r = .ofList r.range
      (((c.cells.toList.filter (r.contains ·.1)).map Prod.fst).map fun k => (k.addr, c.value k)) := by
    rw [List.map_map]
    refine congrArg (RangeValues.ofList r.range) (List.map_congr_left fun e member => ?_)
    have held := (listed e).mp (List.mem_filter.mp member).1
    simp [Contents.value, held]
  have told := tells_of_keys r c.value ((c.cells.toList.filter (r.contains ·.1)).map Prod.fst)
    (fun k member => ?_) fun k inside absent => ?_
  · rw [keyed]
    exact told
  · obtain ⟨e, kept, rfl⟩ := List.mem_map.mp member
    have inside := (List.mem_filter.mp kept).2
    simp only [SheetRange.contains, Bool.and_eq_true, decide_eq_true_eq] at inside
    exact inside.1
  · cases held : c.cells[k]? with
    | none => simp [Contents.value, held]
    | some v =>
      have member : (k, v) ∈ c.cells.toList.filter (r.contains ·.1) :=
        List.mem_filter.mpr ⟨(listed (k, v)).mpr held, inside⟩
      exact absurd (List.mem_map_of_mem member) absent

variable {r view} in
theorem tells_unique (t u : RangeValues) (first : Tells r view t) (second : Tells r view u) :
    t = u :=
  range_values_ext t u (first.range.trans second.range.symm) fun a =>
    (first.cells a).trans (second.cells a).symm

end Tables

namespace RangeValues

-- Every table that can be built: without empty values, and without cells outside its range.
structure Proper (t : RangeValues) : Prop where
  inside : ∀ (a : Address) v, t.cells[a]? = some v → t.range.contains a = true
  filled : ∀ (a : Address) v, t.cells[a]? = some v → v.isEmpty = false

theorem of_list_proper (range : Range) (entries : List (Address × Value)) :
    (ofList range entries).Proper := by
  have kept (a : Address) (v : Value) (found : (ofList range entries).cells[a]? = some v) :
      range.contains a = true ∧ v.isEmpty = false := by
    rw [of_list_lookup] at found
    obtain ⟨before, after, split, _⟩ := List.lookup_eq_some_iff.mp found
    have member : (a, v) ∈ entries.filter fun (a, v) => range.contains a && !v.isEmpty := by
      simp [split]
    simpa using (List.mem_filter.mp member).2
  exact ⟨fun a v found => (kept a v found).1, fun a v found => (kept a v found).2⟩

variable (t : RangeValues)

theorem mem_to_list (e : Address × Value) : e ∈ t.toList ↔ t.cells[e.1]? = some e.2 :=
  (cells_lookup t e.1 e.2).symm

-- All cells of the range row by row, with the empty ones.
def listing : List (Address × Value) := t.range.cells.map fun a => (a, t.get a)

theorem listing_ordered :
    t.listing.Pairwise fun e f => [e.1.row, e.1.col] < [f.1.row, f.1.col] :=
  List.pairwise_map.mpr t.range.cells_ordered

theorem to_list_eq (proper : t.Proper) : t.toList = t.listing.filter fun e => !e.2.isEmpty := by
  refine sorted_unique (fun e => [e.1.row, e.1.col]) _ _ t.to_list_ordered
    (t.listing_ordered.filter _) fun (a, v) => ?_
  rw [mem_to_list, List.mem_filter, listing, List.mem_map]
  constructor
  · intro found
    have inside := proper.inside a v found
    have normal := t.range.normal_of_contains a inside
    exact ⟨⟨a, (t.range.mem_cells normal a).mpr inside, by simp [get_lookup, found]⟩,
      by simp [proper.filled a v found]⟩
  · intro kept
    obtain ⟨⟨b, _, same⟩, filled⟩ := kept
    obtain ⟨rfl, value⟩ := Prod.mk.inj same
    cases found : t.cells[b]? with
    | none => simp [← value, get_lookup, found, Value.isEmpty] at filled
    | some w => simpa [get_lookup, found] using value

end RangeValues

end Formula

end Spreadsheet
