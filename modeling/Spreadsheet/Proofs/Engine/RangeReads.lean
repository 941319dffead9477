import Spreadsheet.Proofs.Engine.Context
import Spreadsheet.Proofs.Engine.Formed
import Spreadsheet.Proofs.Graph.Histories
import Spreadsheet.Proofs.Grid.Cells

-- A range is read as its cells are, one after the other. It is read off the stored records, so
-- what the context knows better has to be asked for again at each record, after the evaluations
-- that the records before it have brought about.

set_option autoImplicit false

namespace Spreadsheet

open Formula

-- The values of a range are those of its cells, given with them.
structure Tabulates (r : SheetRange) (pairs : List (Key × Value)) (values : RangeValues) :
    Prop where
  range : values.range = r.range
  inside : ∀ k v, (k, v) ∈ pairs →
    values.get k.addr = v ∧ (k.addr ∈ values.cells ↔ v.isEmpty = false)
  outside : ∀ a ∈ values.cells, r.range.contains a = true

section Tabulates

variable (r : SheetRange) (keys : List Key) (lists : r.Lists keys) (m : Memory)
  (pairs : List (Key × Value)) (listed : pairs.map Prod.fst = keys)
include lists listed

theorem pair_inside (p : Key × Value) (member : p ∈ pairs) :
    p.1.sheet = r.sheet ∧ r.range.contains p.1.addr = true := by
  have among : p.1 ∈ keys := listed ▸ List.mem_map_of_mem member
  simpa [SheetRange.contains] using (lists.members p.1).mp among

-- No cell is listed twice, so an address leads back to its cell and to what was read there.
theorem pair_of_addr (p q : Key × Value) (first : p ∈ pairs) (second : q ∈ pairs)
    (same : p.1.addr = q.1.addr) : p = q := by
  have distinct : (pairs.map Prod.fst).Nodup :=
    listed ▸ lists.ordered.imp fun {a b} less equal => by
      rw [equal] at less
      exact List.lt_irrefl _ less
  obtain ⟨home, _⟩ := pair_inside r keys lists pairs listed p first
  obtain ⟨away, _⟩ := pair_inside r keys lists pairs listed q second
  refine List.inj_on_of_nodup_map distinct first second ?_
  calc p.1 = ⟨r.sheet, p.1.addr⟩ := by rw [← home]
    _ = q.1 := by rw [same, ← away]

variable (empty : ∀ k v, (k, v) ∈ pairs → k ∉ m.cells → v = .empty)
include empty

theorem pair_looked_up (k : Key) (v : Value) (member : (k, v) ∈ pairs) :
    (RangeValues.ofList r.range
        ((pairs.filter fun p => p.1 ∈ m.cells).map fun p => (p.1.addr, p.2))).cells[k.addr]? =
      if v.isEmpty then none else some v := by
  rw [of_list_lookup]
  refine lookup_of_mem _ k.addr _ fun w => ?_
  simp only [List.mem_filter, List.mem_map, Bool.and_eq_true, Bool.not_eq_true', decide_eq_true_eq,
    Prod.mk.injEq]
  constructor
  · rintro ⟨⟨p, ⟨other, _⟩, addr, rfl⟩, _, held⟩
    cases pair_of_addr r keys lists pairs listed p (k, v) other member addr
    simp [held]
  · intro kept
    by_cases blank : v.isEmpty = true
    · simp [blank] at kept
    · obtain rfl : v = w := by simpa [blank] using kept
      have present : k ∈ m.cells := by
        by_contra absent
        rw [empty k v member absent] at blank
        exact blank rfl
      exact ⟨⟨(k, v), ⟨member, present⟩, rfl, rfl⟩,
        (pair_inside r keys lists pairs listed _ member).2, Bool.eq_false_iff.mpr blank⟩

theorem tabulates_of_list : Tabulates r pairs (.ofList r.range
    ((pairs.filter fun p => p.1 ∈ m.cells).map fun p => (p.1.addr, p.2))) := by
  refine ⟨rfl, fun k v member => ?_, fun a kept => ?_⟩
  · rw [get_lookup, Std.ExtTreeMap.mem_iff_isSome_getElem?,
      pair_looked_up r keys lists m pairs listed empty k v member]
    cases v <;> simp [Value.isEmpty]
  · rw [Std.ExtTreeMap.mem_iff_isSome_getElem?, of_list_lookup,
      Option.isSome_iff_exists] at kept
    obtain ⟨v, kept⟩ := kept
    obtain ⟨before, after, split, _⟩ := List.lookup_eq_some_iff.mp kept
    have member := List.mem_filter.mp (split ▸ List.mem_append_right before List.mem_cons_self)
    exact (Bool.and_eq_true_iff.mp member.2).1

end Tabulates

namespace Context

section Reads

variable (m : Memory) (available : m.available = true) (formulas : KeyMap Compiled)
  (stored : ∀ k ∈ formulas, k ∈ m.cells) (path : Path) (known : ∀ k ∈ path.cells, k ∈ formulas)

-- What a range holds for a stored record.
def recordValue {σ : Type} [CellStore σ] (cell : Key → Attempt (Context σ) Value) (path : Path)
    (record : Record) : Attempt (Context σ) (Address × Value) := do
  if (← get).isLive path record.key then return (record.key.addr, ← cell record.key)
  else return (record.key.addr, record.value)

variable (c : Context Memory) (formed : Formed (· = m) formulas c)

include formed

include available in
theorem idle_returns (k : Key) (idle : c.isLive path k = false) :
    (cellValue path k).Returns c (m.value k) c := by
  simp only [isLive, Bool.or_eq_false_iff, decide_eq_false_iff_not] at idle
  obtain ⟨⟨unkept, settled⟩, off⟩ := idle
  have none : c.cache[k]? = none := Std.ExtTreeMap.getElem?_eq_none unkept
  have looked (compute : Path → Key → Attempt (Context Memory) Value) :
      (lookupWith compute path k).Returns c (m.value k) c := by
    refine returns_bind _ _ c c c c _ (returns_get c) ?_
    simp only [none, off, settled, if_false, Bool.false_eq_true]
    exact stored_value_returns m available c formed.store k
  unfold cellValue
  cases maxNesting - path.depth with
  | zero => exact looked _
  | succ room => exact looked _

-- All that a context knows better than the store is stored.
include stored known in
theorem stored_of_live (k : Key) (live : c.isLive path k = true) : k ∈ m.cells := by
  simp only [isLive, Bool.or_eq_true, decide_eq_true_eq] at live
  apply stored
  rcases live with (kept | waiting) | on
  · exact formed.cached k kept
  · exact formed.pending k waiting
  · exact known k (by simpa [Path.contains] using on)

include available in
theorem cell_value_returns (k : Key) :
    ∃ v d, (cellValue path k).Returns c v d ∧ Formed (· = m) formulas d :=
  returns_of_lasts _ _ (cell_at_lasts _ False formulas
    (steady_of_truthful _ False m (m.truthful available)) _ path k) c formed

include available in
theorem record_value_returns (record : Record)
    (found : m.cells[record.key]? = some record.cell) :
    ∃ v d, (cellValue path record.key).Returns c v d ∧ Formed (· = m) formulas d ∧
      (recordValue (cellValue path) path record).Returns c (record.key.addr, v) d := by
  by_cases live : c.isLive path record.key = true
  · obtain ⟨v, d, read, after⟩ := cell_value_returns m available formulas path c formed record.key
    refine ⟨v, d, read, after, returns_bind _ _ c c d c _ (returns_get c) ?_⟩
    rw [if_pos live]
    exact returns_bind _ _ c d d _ _ read (returns_pure d _)
  · have idle : c.isLive path record.key = false := Bool.eq_false_iff.mpr live
    have value : m.value record.key = record.value := by
      simp only [Memory.value, found]
      rfl
    have read := idle_returns m available formulas path c formed record.key idle
    rw [value] at read
    refine ⟨record.value, c, read, formed, returns_bind _ _ c c c c _ (returns_get c) ?_⟩
    rw [if_neg live]
    exact returns_pure c _

-- Side by side, the cells of a list and the records among them end in one context. A cell without
-- a record is empty, and to read it changes nothing.
include available stored known in
theorem records_alongside (keys : List Key) :
    ∃ (pairs : List (Key × Value)) (d : Context Memory), pairs.map Prod.fst = keys ∧
      (∀ k v, (k, v) ∈ pairs → k ∉ m.cells → v = Value.empty) ∧
      (keys.mapM (cellValue path)).Returns c (pairs.map Prod.snd) d ∧
        ((keys.filterMap m.recordAt).mapM (recordValue (cellValue path) path)).Returns c
          ((pairs.filter fun p => p.1 ∈ m.cells).map fun p => (p.1.addr, p.2)) d := by
  induction keys generalizing c with
  | nil => exact ⟨[], c, rfl, by simp, returns_pure c _, returns_pure c _⟩
  | cons k rest ih =>
    cases found : m.cells[k]? with
    | none =>
      have absent : k ∉ m.cells := by simpa using found
      have idle : c.isLive path k = false := Bool.eq_false_iff.mpr fun live =>
        absent (stored_of_live m formulas stored path known c formed k live)
      have read := idle_returns m available formulas path c formed k idle
      have blank : m.value k = .empty := by simp [Memory.value, found]
      obtain ⟨pairs, d, listed, empty, cells, records⟩ := ih c formed
      refine ⟨(k, .empty) :: pairs, d, by simp [listed], ?_, ?_, ?_⟩
      · intro p v member unstored
        rcases List.mem_cons.mp member with same | later
        · exact (Prod.mk.inj same).2
        · exact empty p v later unstored
      · exact returns_map_cons _ k rest c c d _ _ (blank ▸ read) cells
      · have skipped : m.recordAt k = none := by simp [Memory.recordAt, found]
        rw [List.filterMap_cons_none skipped, List.filter_cons_of_neg (by simpa using absent)]
        exact records
    | some cell =>
      have present : k ∈ m.cells := member_of_lookup m.cells k cell found
      obtain ⟨v, t, read, after, recorded⟩ :=
        record_value_returns m available formulas path c formed ⟨k, cell⟩ found
      obtain ⟨pairs, d, listed, empty, cells, records⟩ := ih t after
      refine ⟨(k, v) :: pairs, d, by simp [listed], ?_, ?_, ?_⟩
      · intro p w member unstored
        rcases List.mem_cons.mp member with same | later
        · exact absurd present ((Prod.mk.inj same).1 ▸ unstored)
        · exact empty p w later unstored
      · exact returns_map_cons _ k rest c t d _ _ read cells
      · have kept : m.recordAt k = some ⟨k, cell⟩ := by simp [Memory.recordAt, found]
        rw [List.filterMap_cons_some kept, List.filter_cons_of_pos (by simpa using present)]
        exact returns_map_cons _ _ _ c t d _ _ recorded records

end Reads

-- To read a range is to read its cells, row by row: the context is the same afterwards, and the
-- range holds what was read of each cell.
theorem range_reads_cells (c : Context Memory) (arisen : c.Arisen)
    (available : c.store.available = true) (stored : ∀ k ∈ c.formulas, k ∈ c.store.cells)
    (path : Path) (known : ∀ k ∈ path.cells, k ∈ c.formulas) (r : SheetRange) :
    (r.range.Normal → r.Lists r.keys) ∧ ∀ keys, r.Lists keys →
      ∃ (pairs : List (Key × Value)) (values : RangeValues) (d : Context Memory),
        pairs.map Prod.fst = keys ∧
          (keys.mapM (cellValue path)).Returns c (pairs.map Prod.snd) d ∧
            (rangeValues path r).Returns c values d ∧ Tabulates r pairs values := by
  refine ⟨r.lists_keys, fun keys lists => ?_⟩
  have arose := arisen_formed c arisen
  have formed : Formed (· = c.store) c.formulas c := ⟨rfl, rfl, arose.pending, arose.cached⟩
  obtain ⟨pairs, d, listed, empty, cells, records⟩ :=
    records_alongside c.store available c.formulas stored path known c formed keys
  refine ⟨pairs, _, d, listed, cells, ?_,
    tabulates_of_list r keys lists c.store pairs listed empty⟩
  have read := calling_reading_returns c.store available c (·.recordsIn r) rfl
  rw [c.store.records_in_eq r keys lists] at read
  refine returns_bind _ _ c c d _ _ read ?_
  exact returns_bind _ _ c d d _ _ records (returns_pure d _)

-- A formula on the path, one that is stale in the store, one that closes a circle, and a cell that
-- no formula is in.
theorem range_reads_cells_under_evaluation :
    let cell (row col : Nat) : Key := ⟨⟨1⟩, ⟨row, col⟩⟩
    let texts := [(cell 1 1, "=C2"), (cell 1 2, "=COUNT(A1:C2)"), (cell 2 1, "=B1")]
    let stale := texts.map fun (k, text) => (k, Cell.formula ⟨text, .text "stale", none, []⟩)
    let m : Memory := ⟨[], .ofList ((cell 2 3, .literal (.text "fresh")) :: stale), true⟩
    let c := ofFormulas m (.ofList (texts.map fun (k, text) => (k, Compiled.ofSource .empty text)))
    let path := Path.root.push (cell 1 2)
    let r : SheetRange := ⟨⟨1⟩, ⟨⟨1, 1⟩, ⟨2, 3⟩⟩⟩
    c.Arisen ∧ c.store.available = true ∧ (∀ k ∈ c.formulas, k ∈ c.store.cells) ∧
      (∀ k ∈ path.cells, k ∈ c.formulas) ∧
      ∃ (pairs : List (Key × Value)) (values : RangeValues) (d : Context Memory),
        pairs.map Prod.fst = r.keys ∧
          pairs.map (·.2.toText) = ["fresh", "#CIRCULAR!", "", "#CIRCULAR!", "", "fresh"] ∧
            (r.keys.mapM (cellValue path)).Returns c (pairs.map Prod.snd) d ∧
              (rangeValues path r).Returns c values d ∧ Tabulates r pairs values ∧
                d.cyclicCells = [cell 1 2, cell 2 1] := by
  intro cell texts stale m c path r
  have arisen : c.Arisen := .new m _
  have stored : ∀ k ∈ c.formulas, k ∈ c.store.cells := by
    intro k member
    have listed : ∀ k ∈ c.formulas.keys, k ∈ c.store.cells := by decide +kernel
    exact listed k (Std.ExtTreeMap.mem_keys.mpr member)
  have known : ∀ k ∈ path.cells, k ∈ c.formulas := by decide +kernel
  obtain ⟨lists, read⟩ := range_reads_cells c arisen rfl stored path known r
  obtain ⟨pairs, values, d, listed, each, whole, tabulated⟩ :=
    read r.keys (lists (by decide +kernel))
  have result := congrArg (fun ended => ended.1.toOption.map (List.map Value.toText)) each
  have marks := congrArg (fun ended => ended.2.cyclicCells) each
  have spelled : ((r.keys.mapM (cellValue path)).run.run c).1.toOption.map (List.map Value.toText) =
      some ["fresh", "#CIRCULAR!", "", "#CIRCULAR!", "", "fresh"] := by decide +kernel
  have marked : ((r.keys.mapM (cellValue path)).run.run c).2.cyclicCells =
      [cell 1 2, cell 2 1] := by decide +kernel
  have held := result.symm.trans spelled
  simp only [Except.toOption, Option.map_some, Option.some.injEq, List.map_map] at held
  exact ⟨arisen, rfl, stored, known, pairs, values, d, listed, held, each, whole, tabulated,
    marks.symm.trans marked⟩

end Context

end Spreadsheet
