import Spreadsheet.Formula.Compiled
import Spreadsheet.Store.Memory
import Spreadsheet.Proofs.Formula.Evaluation
import Spreadsheet.Proofs.Formula.Tables

-- A memory as fixed contents: what it answers to the questions of a formula. The value of a
-- formula depends on the sheets and on the values of the cells that its bound references cover.

set_option autoImplicit false

namespace Spreadsheet

open Formula

namespace Text

def IsAscii (s : String) : Prop := ∀ c ∈ s.toList, c.toNat < 128

instance (s : String) : Decidable (IsAscii s) := List.decidableBAll _ s.toList

theorem upper_ascii (s : String) (ascii : IsAscii s) : upper s = asciiUpper s := by
  have mapped : ∀ cs : List Char, (∀ c ∈ cs, c.toNat < 128) → upperChars cs = cs.map Char.toUpper := by
    intro cs small
    induction cs with
    | nil => rfl
    | cons c rest ih =>
      have later := ih fun d member => small d (List.mem_cons_of_mem c member)
      have first : upperChar c = [c.toUpper] := if_pos (small c List.mem_cons_self)
      change upperChar c ++ upperChars rest = _
      rw [later, first]
      rfl
  exact congrArg String.ofList (mapped s.toList ascii)

end Text

def Formula.Compiled.AsciiSheets (c : Compiled) : Prop :=
  ∀ r ∈ c.references, ∀ name ∈ r.sheet?, Text.IsAscii name

instance (c : Compiled) : Decidable c.AsciiSheets := by
  unfold Compiled.AsciiSheets
  infer_instance

namespace Memory

-- The sheet that a name means on the sheet `home`.
def sheetFrom (m : Memory) (home : SheetId) (name : String) : Option SheetId :=
  (m.sheet home).bind fun info => m.sheetNamed info.workbook name

-- What formulas read when everything is answered by the present contents.
def answer (m : Memory) : (q : Query) → q.Answer
  | .cell k => m.value k
  | .range r =>
    .ofList r.range ((m.recordsIn r).map fun record => (record.key.addr, record.value))
  | .sheet home name => m.sheetFrom home name

def resolver (m : Memory) : Resolver := fun q => .ok (m.answer q)

-- The value of a formula text in the cell `k` under the present contents.
def computed (m : Memory) (names : Names) (k : Key) (source : String) : Value :=
  ((Compiled.ofSource names source).evaluate k.sheet).value m.answer

def bound (m : Memory) (home : SheetId) (refs : List Reference) : List SheetRange :=
  refs.filterMap (·.boundBy home m.resolver)

theorem sheet_from_ascii (m : Memory) (home : SheetId) (name other : String)
    (ascii : Text.IsAscii name) (otherAscii : Text.IsAscii other)
    (same : Text.upper name = Text.upper other) : m.sheetFrom home name = m.sheetFrom home other := by
  rw [Text.upper_ascii name ascii, Text.upper_ascii other otherAscii] at same
  simp only [sheetFrom, sheetNamed, Text.asciiSame, same]

theorem mem_records (m : Memory) (record : Record) :
    record ∈ m.records ↔ m.cells[record.key]? = some record.cell := by
  cases record
  simp [records, Std.ExtTreeMap.mem_toList_iff_getElem?_eq_some]

theorem records_sorted (m : Memory) :
    m.records.Pairwise fun a b => a.key.place < b.key.place :=
  List.pairwise_map.mpr (Std.ExtTreeMap.ordered_keys_toList.imp fun {a b} less =>
    (Key.compare_lt_iff a.1 b.1).mp less)

theorem value_of_absent (m : Memory) (k : Key) (absent : k ∉ m.cells) : m.value k = .empty := by
  rw [value, Std.ExtTreeMap.getElem?_eq_none absent]
  rfl

-- Nothing of a range lies outside of what is between its corners.
theorem mem_records_in (m : Memory) (r : SheetRange) (record : Record) :
    record ∈ m.recordsIn r ↔
      m.cells[record.key]? = some record.cell ∧ r.contains record.key = true := by
  simp only [recordsIn, recordsBetween, List.mem_filter, mem_records, Bool.and_eq_true]
  constructor
  · rintro ⟨⟨found, _⟩, inside⟩
    exact ⟨found, inside⟩
  · rintro ⟨found, inside⟩
    exact ⟨⟨found, key_between_corners r record.key inside⟩, inside⟩

theorem value_of_record_in (m : Memory) (r : SheetRange) (record : Record)
    (member : record ∈ m.recordsIn r) : m.value record.key = record.value := by
  rw [value, ((m.mem_records_in r record).mp member).1]
  rfl

-- The records of a range are those of its cells, row by row.
theorem records_in_eq (m : Memory) (r : SheetRange) (keys : List Key) (lists : r.Lists keys) :
    m.recordsIn r = keys.filterMap m.recordAt := by
  refine sorted_unique (fun record : Record => record.key.place) _ _
    ((m.records_sorted.filter _).filter _) ?_ fun record => ?_
  · refine List.pairwise_filterMap.mpr (lists.ordered.imp fun {a b} less => ?_)
    intro first found second other
    simp only [recordAt, Option.map_eq_some_iff] at found other
    obtain ⟨_, _, rfl⟩ := found
    obtain ⟨_, _, rfl⟩ := other
    exact less
  · simp only [mem_records_in, List.mem_filterMap, lists.members, recordAt,
      Option.map_eq_some_iff]
    constructor
    · rintro ⟨found, inside⟩
      exact ⟨record.key, inside, record.cell, found, rfl⟩
    · rintro ⟨k, inside, c, found, rfl⟩
      exact ⟨found, inside⟩

theorem recorded_keys (m : Memory) (r : SheetRange) (k : Key) :
    k ∈ (m.recordsIn r).map Record.key ↔ k ∈ m.cells ∧ r.contains k = true := by
  simp only [List.mem_map, mem_records_in]
  constructor
  · rintro ⟨record, ⟨found, inside⟩, rfl⟩
    exact ⟨member_of_lookup m.cells _ _ found, inside⟩
  · rintro ⟨held, inside⟩
    obtain ⟨c, found⟩ := lookup_of_member m.cells k held
    exact ⟨⟨k, c⟩, ⟨found, inside⟩, rfl⟩

-- The stored records of a range tell all of it, where cells that are not stored are empty.
theorem records_tell (m : Memory) (r : SheetRange) (view : Key → Value)
    (blank : ∀ k ∉ m.cells, view k = .empty) : Tells r view (.ofList r.range
      ((m.recordsIn r).map fun record => (record.key.addr, view record.key))) := by
  have listed := tells_of_keys r view ((m.recordsIn r).map Record.key)
  rw [List.map_map] at listed
  refine listed (fun k member => ?_) fun k inside absent => ?_
  · have inside := ((recorded_keys m r k).mp member).2
    simp_all [SheetRange.contains]
  · exact blank k fun held => absent ((recorded_keys m r k).mpr ⟨held, inside⟩)

theorem range_answer_tells (m : Memory) (r : SheetRange) :
    Tells r m.value (m.answer (.range r)) := by
  have values : (m.recordsIn r).map (fun record => (record.key.addr, record.value)) =
      (m.recordsIn r).map fun record => (record.key.addr, m.value record.key) := by
    refine List.map_congr_left fun record member => ?_
    rw [m.value_of_record_in r record member]
  rw [answer, values]
  exact m.records_tell r m.value m.value_of_absent

theorem range_answer_congr (m n : Memory) (r : SheetRange)
    (same : ∀ k, r.contains k = true → m.value k = n.value k) :
    m.answer (.range r) = n.answer (.range r) := by
  refine range_values_ext _ _ rfl fun a => ?_
  rw [(m.range_answer_tells r).cells, (n.range_answer_tells r).cells]
  by_cases inside : r.range.contains a = true
  · rw [same ⟨r.sheet, a⟩ (by simp [SheetRange.contains, inside])]
  · simp [inside]

theorem bound_congr (m n : Memory) (home : SheetId) (refs : List Reference)
    (sheets : m.sheets = n.sheets) : m.bound home refs = n.bound home refs := by
  have answered (name : String) : m.resolver (.sheet home name) = n.resolver (.sheet home name) := by
    simp only [resolver, answer, sheetFrom, sheet, sheetNamed, sheets]
  simp only [bound, Reference.boundBy, answered]

theorem compiled_confined (c : Compiled) (home : SheetId) (answers : Answers) :
    Confined home answers c.references (c.evaluate home) := by
  unfold Compiled.evaluate
  cases read : c.expr with
  | error e => trivial
  | ok e =>
    have listed : c.references = e.references := by
      simp [Compiled.references, Compiled.expr?, read, Except.toOption]
    rw [listed]
    exact references_confined e

theorem compiled_bounded (c : Compiled) (home : SheetId) (resolver : Resolver) :
    Bounded home resolver c.references (c.evaluate home) :=
  bounded_of_confined home resolver _ _ (compiled_confined c home _)

theorem computed_congr (m n : Memory) (names : Names) (k : Key) (source : String)
    (sheets : m.sheets = n.sheets)
    (values : ∀ r ∈ m.bound k.sheet (Compiled.ofSource names source).references,
      ∀ p, r.contains p = true → m.value p = n.value p) :
    m.computed names k source = n.computed names k source := by
  refine (Reading.value_agree m.answer n.answer _ _
    (compiled_bounded (.ofSource names source) k.sheet m.resolver) fun q accounted => ?_).symm
  cases q with
  | sheet home name =>
    simp only [answer, sheetFrom, sheet, sheetNamed, sheets]
  | cell p =>
    obtain ⟨r, member, bound⟩ := accounted
    exact values _ (List.mem_filterMap.mpr ⟨r, member, bound⟩) p ((contains_of_key p p).mpr rfl)
  | range x =>
    obtain ⟨r, member, bound⟩ := accounted
    exact range_answer_congr m n x (values _ (List.mem_filterMap.mpr ⟨r, member, bound⟩))

end Memory

end Spreadsheet
