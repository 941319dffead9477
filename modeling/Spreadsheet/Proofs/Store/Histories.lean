import Spreadsheet.Proofs.Store.Answers
import Spreadsheet.Proofs.Store.Faults

-- What a memory holds after any use of it, and what its calls tell of this. A cell holds what was
-- written there last, a range is read as its cells are, and a memory that is switched off neither
-- tells nor takes anything.

set_option autoImplicit false

namespace Spreadsheet

-- Every call fails and leaves the store as it was.
structure Refuses {σ : Type} [CellStore σ] (s : σ) (error : StoreError) : Prop where
  cell : ∀ k, (CellStore.cell k).Fails s error s
  range : ∀ r, (CellStore.range r).Fails s error s
  putValue : ∀ k v, (CellStore.putValue k v).Fails s error s
  putFormula : ∀ k f, (CellStore.putFormula k f).Fails s error s
  sheetNamed : ∀ workbook name, (CellStore.sheetNamed workbook name).Fails s error s
  sheet : ∀ id, (CellStore.sheet id).Fails s error s
  formulaCells : ∀ sheet, (CellStore.formulaCells sheet).Fails s error s

namespace Memory

inductive Operation where
  | addSheet (workbook : WorkbookId) (name : String)
  | load (records : List Record)
  | putValue (k : Key) (v : Value)
  | putFormula (k : Key) (f : FormulaCell)
  | setAvailable (available : Bool)

-- What is written to a cell; nothing takes away what is stored.
structure Write where
  key : Key
  cell? : Option Cell

namespace Operation

def perform (m : Memory) : Operation → Memory
  | addSheet workbook name => (m.addSheet workbook name).2
  | load records => m.load records
  | putValue k v => ((CellStore.putValue k v : Attempt Memory Unit).run.run m).2
  | putFormula k f => ((CellStore.putFormula k f : Attempt Memory Unit).run.run m).2
  | setAvailable available => m.setAvailable available

def switch? : Operation → Option Bool
  | setAvailable available => some available
  | _ => none

-- Records are loaded whether the memory is switched on or not; an empty value among them is stored.
def writes (available : Bool) : Operation → List Write
  | load records => records.map fun r => ⟨r.key, some r.cell⟩
  | putValue k v =>
    if available then [⟨k, if v.isEmpty then none else some (.literal v)⟩] else []
  | putFormula k f => if available then [⟨k, some (.formula f)⟩] else []
  | addSheet _ _ => []
  | setAvailable _ => []

end Operation

def after (history : List Operation) : Memory := history.foldl Operation.perform empty

-- Whether a memory is switched on, as it was last told.
def switched (before : Bool) (history : List Operation) : Bool :=
  (history.filterMap Operation.switch?).getLast?.getD before

-- The writes of a history, the first one first.
def written : Bool → List Operation → List Write
  | _, [] => []
  | available, op :: rest => op.writes available ++ written (op.switch?.getD available) rest

-- What is stored at a key after some writes, the last one to the key being in force.
def settled (k : Key) (before : Option Cell) (writes : List Write) : Option Cell :=
  ((writes.filter (·.key = k)).getLast?.map Write.cell?).getD before

-- The record that a history leaves at a key.
def left (history : List Operation) (k : Key) : Option Record :=
  (settled k none (written true history)).map (⟨k, ·⟩)

section Writes

variable (k : Key)

theorem settled_append (before : Option Cell) (first last : List Write) :
    settled k before (first ++ last) = settled k (settled k before first) last := by
  simp only [settled, List.filter_append, List.getLast?_append]
  cases (last.filter (·.key = k)).getLast? <;> simp

theorem settled_one (before : Option Cell) (w : Write) :
    settled k before [w] = if w.key = k then w.cell? else before := by
  by_cases same : w.key = k <;> simp [settled, same]

theorem put_lookup (m : Memory) (p : Key) (c : Cell) :
    (m.put p c).cells[k]? = settled k m.cells[k]? [⟨p, some c⟩] := by
  rw [put, lookup_insert, settled_one]

theorem remove_lookup (m : Memory) (p : Key) :
    (m.remove p).cells[k]? = settled k m.cells[k]? [⟨p, none⟩] := by
  rw [remove, lookup_erase, settled_one]

theorem write_value_lookup (m : Memory) (p : Key) (v : Value) :
    (m.writeValue p v).cells[k]? =
      settled k m.cells[k]? [⟨p, if v.isEmpty then none else some (.literal v)⟩] := by
  unfold writeValue
  split
  · exact remove_lookup k m p
  · exact put_lookup k m p _

theorem load_lookup (m : Memory) (records : List Record) :
    (m.load records).cells[k]? =
      settled k m.cells[k]? (records.map fun r => ⟨r.key, some r.cell⟩) := by
  induction records generalizing m with
  | nil => rfl
  | cons r rest ih =>
    have later := ih (m.put r.key r.cell)
    rw [put_lookup, ← settled_append] at later
    exact later

theorem load_available (m : Memory) (records : List Record) :
    (m.load records).available = m.available := by
  induction records generalizing m with
  | nil => rfl
  | cons r rest ih => exact ih (m.put r.key r.cell)

end Writes

-- One operation writes what it is said to write, and only a switch switches.
theorem perform_leaves (m : Memory) (op : Operation) :
    (op.perform m).available = op.switch?.getD m.available ∧
      ∀ k, (op.perform m).cells[k]? = settled k m.cells[k]? (op.writes m.available) := by
  have held (f : Memory → Memory) :
      ((writing f).run.run m).2 = if m.available then f m else m := by
    rw [run_writing]
    split <;> rfl
  cases op with
  | addSheet workbook name => exact ⟨rfl, fun k => rfl⟩
  | load records => exact ⟨load_available m records, fun k => load_lookup k m records⟩
  | putValue p v =>
    have run : Operation.perform m (.putValue p v) =
        if m.available then m.writeValue p v else m := held _
    rw [run]
    cases on : m.available with
    | true =>
      refine ⟨?_, fun k => write_value_lookup k m p v⟩
      simp only [if_true, writeValue]
      split <;> exact on
    | false => exact ⟨on, fun k => rfl⟩
  | putFormula p f =>
    have run : Operation.perform m (.putFormula p f) =
        if m.available then m.put p (.formula f) else m := held _
    rw [run]
    cases on : m.available with
    | true => exact ⟨on, fun k => put_lookup k m p _⟩
    | false => exact ⟨on, fun k => rfl⟩
  | setAvailable available => exact ⟨rfl, fun k => rfl⟩

theorem run_leaves (m : Memory) (history : List Operation) :
    (history.foldl Operation.perform m).available = switched m.available history ∧
      ∀ k, (history.foldl Operation.perform m).cells[k]? =
        settled k m.cells[k]? (written m.available history) := by
  induction history generalizing m with
  | nil => exact ⟨rfl, fun k => rfl⟩
  | cons op rest ih =>
    obtain ⟨state, lookups⟩ := perform_leaves m op
    obtain ⟨on, held⟩ := ih (op.perform m)
    rw [state] at on held
    refine ⟨on.trans ?_, fun k => ?_⟩
    · cases told : op.switch? with
      | none => simp [switched, told]
      | some available => simp [switched, told, List.getLast?_cons]
    · rw [List.foldl_cons, held k, lookups k, ← settled_append]
      rfl

theorem formulas_on_sorted (m : Memory) (sheet : SheetId) :
    (m.formulasOn sheet).Pairwise fun a b => compare a.key.addr b.key.addr = .lt := by
  have home (record : Record) (member : record ∈ m.formulasOn sheet) :
      record.key.sheet = sheet := by
    have kept := (List.mem_filter.mp member).2
    simp only [Bool.and_eq_true, decide_eq_true_eq] at kept
    exact kept.1
  refine (m.records_sorted.filter _).imp_of_mem fun {a b} first second less => ?_
  have keys : compare a.key b.key =
      (compare a.key.sheet b.key.sheet).then (compare a.key.addr b.key.addr) := rfl
  have same : compare a.key.sheet b.key.sheet = .eq :=
    (SheetId.compare_eq_iff _ _).mpr ((home a first).trans (home b second).symm)
  rw [← Key.compare_lt_iff, keys, same] at less
  exact less

theorem mem_formulas_on (m : Memory) (sheet : SheetId) (record : Record) :
    record ∈ m.formulasOn sheet ↔ record.key.sheet = sheet ∧ record.cell.isFormula = true ∧
      m.recordAt record.key = some record := by
  cases record
  simp only [formulasOn, List.mem_filter, mem_records, Bool.and_eq_true, decide_eq_true_eq,
    recordAt, Option.map_eq_some_iff, Record.mk.injEq, true_and, exists_eq_right]
  exact and_rotate

theorem refuses (m : Memory) (off : m.available = false) : Refuses m switchedOff := by
  have read {α : Type} (f : Memory → α) : (reading f).Fails m switchedOff m := by
    simp [Attempt.Fails, run_reading, off]
  have write (f : Memory → Memory) : (writing f).Fails m switchedOff m := by
    simp [Attempt.Fails, run_writing, off]
  exact ⟨fun k => read _, fun r => read _, fun k v => write _, fun k f => write _,
    fun workbook name => read _, fun id => read _, fun sheet => read _⟩

-- After any use of a new memory each cell holds what was written there last, a range is read as the
-- cells of the range, and the formulas of a sheet are the formulas among its cells, both row by
-- row. While the memory is switched off, every call fails and changes nothing.
theorem range_reads_are_cell_reads (history : List Operation) :
    (after history).available = switched true history ∧
    (switched true history = true →
      (∀ k, (CellStore.cell k).Returns (after history) (left history k) (after history)) ∧
      (∀ r : SheetRange, r.range.Normal →
        (CellStore.range r).Returns (after history) (r.keys.filterMap (left history))
          (after history)) ∧
      ∀ sheet, ∃ formulas,
        (CellStore.formulaCells sheet).Returns (after history) formulas (after history) ∧
        (formulas.Pairwise fun a b => compare a.key.addr b.key.addr = .lt) ∧
        ∀ record, record ∈ formulas ↔ record.key.sheet = sheet ∧ record.cell.isFormula = true ∧
          left history record.key = some record) ∧
    (switched true history = false → Refuses (after history) switchedOff) := by
  obtain ⟨state, lookups⟩ := run_leaves empty history
  have on : (after history).available = switched true history := state
  have found (k : Key) : (after history).recordAt k = left history k := by
    rw [recordAt, after, lookups k, left]
    simp [empty]
  have all : (after history).recordAt = left history := funext found
  refine ⟨on, fun available => ?_, fun off => refuses _ (on.trans off)⟩
  have told := on.trans available
  refine ⟨fun k => ?_, fun r normal => ?_, fun sheet => ?_⟩
  · exact found k ▸ reading_returns _ told (·.recordAt k)
  · have read := reading_returns _ told (·.recordsIn r)
    rwa [records_in_eq _ r r.keys (r.lists_keys normal), all] at read
  · refine ⟨_, reading_returns _ told (·.formulasOn sheet), formulas_on_sorted _ sheet, ?_⟩
    intro record
    rw [mem_formulas_on, found]

-- A square in which one cell is loaded with an empty value, one typed, one emptied again and one
-- given a formula; what is typed while the memory is switched off is not taken.
theorem range_reads_are_cell_reads_of_square :
    let a1 : Key := ⟨⟨1⟩, 1, 1⟩
    let b1 : Key := ⟨⟨1⟩, 1, 2⟩
    let a2 : Key := ⟨⟨1⟩, 2, 1⟩
    let b2 : Key := ⟨⟨1⟩, 2, 2⟩
    let both := FormulaCell.uncomputed "=A1+B1"
    let use : List Operation :=
      [.addSheet ⟨1⟩ "Data", .load [⟨a1, .literal .empty⟩, ⟨a2, .literal (.boolean true)⟩],
        .putFormula b2 both, .putValue b1 (.boolean false), .putValue a2 .empty,
        .setAvailable false, .putValue a1 (.boolean true)]
    let later := after (use ++ [.setAvailable true])
    Refuses (after use) switchedOff ∧
      (CellStore.range ⟨⟨1⟩, a1.addr, b2.addr⟩).Returns later
        [⟨a1, .literal .empty⟩, ⟨b1, .literal (.boolean false)⟩, ⟨b2, .formula both⟩] later := by
  intro a1 b1 a2 b2 both use later
  obtain ⟨_, _, off⟩ := range_reads_are_cell_reads use
  obtain ⟨_, on, _⟩ := range_reads_are_cell_reads (use ++ [.setAvailable true])
  have normal : (⟨a1.addr, b2.addr⟩ : Range).Normal := by decide
  exact ⟨off rfl, (on rfl).2.1 ⟨⟨1⟩, a1.addr, b2.addr⟩ normal⟩

end Memory

end Spreadsheet
