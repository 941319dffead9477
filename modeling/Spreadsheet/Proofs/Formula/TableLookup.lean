import Spreadsheet.Proofs.Decimal.WholeNumbers
import Spreadsheet.Proofs.Formula.Lookup
import Spreadsheet.Formula.Contents

-- A lookup in a table is a match in its first column and then a look at one cell.

set_option autoImplicit false

namespace Spreadsheet

namespace Range

def firstColumn (r : Range) : Range := ⟨r.first, ⟨r.last.row, r.first.col⟩⟩

theorem first_column_contains (r : Range) (normal : r.Normal) (a : Address) :
    r.firstColumn.contains a = true ↔ r.contains a = true ∧ a.col = r.first.col := by
  obtain ⟨_, columns⟩ := normal
  rw [contains_iff, contains_iff]
  simp only [firstColumn]
  omega

-- Down a column the cells are numbered by their rows.
theorem first_column_index (r : Range) (a : Address) (inside : r.firstColumn.contains a = true) :
    r.firstColumn.cells.idxOf a = a.row - r.first.row := by
  have index := r.firstColumn.index_eq a inside
  rw [index?, if_pos inside, Option.some.injEq] at index
  rw [contains_iff] at inside
  simp only [firstColumn, columns] at index inside
  rw [firstColumn, ← index, Nat.sub_self, Nat.zero_add, Nat.mul_one]
  omega

end Range

namespace Formula

section Column

theorem whole_part_of_nat (n : Nat) (below : n < 2 ^ 52) :
    wholePart (Float.ofNat n) = Float.ofNat n := by
  have room : n < 2 ^ 53 := Nat.lt_trans below (by decide)
  have limit : (4503599627370496 : Float) = Float.ofNat (2 ^ 52) := rfl
  have fraction : (Float.ofNat n).abs < 4503599627370496 := by
    rw [Decimal.of_nat_abs n room, limit]
    exact (Decimal.of_nat_lt n (2 ^ 52) room (by decide)).mpr below
  have positive : ¬Float.ofNat n < 0.0 := by
    rw [Decimal.zero_eq, Decimal.of_nat_lt n 0 room (by decide)]
    exact Nat.not_lt_zero n
  rw [wholePart, if_pos fraction, if_neg positive, Decimal.of_nat_to_uint64 n room,
    Decimal.to_float_packed n room, Decimal.of_nat_packed n room]

theorem column_index_of_nat (t : RangeValues) (v : Value) (c : Nat)
    (number : v.toNumber = .ok (Float.ofNat c)) (least : 1 ≤ c) (most : c ≤ t.width)
    (narrow : t.width < 2 ^ 32) : columnIndex t v = .ok c := by
  have before : ¬Float.ofNat c < 1.0 := by
    rw [Decimal.one_eq, Decimal.of_nat_lt c 1 (by omega) (by decide)]
    omega
  have after : ¬Float.ofNat t.width < Float.ofNat c := by
    rw [Decimal.of_nat_lt _ _ (by omega) (by omega)]
    omega
  have back := Decimal.of_nat_to_uint32 c (by omega)
  rw [columnIndex, number]
  simp only [bind, Except.bind, whole_part_of_nat c (by omega), before, after, back]
  rfl

end Column

section Call

variable (answer : (q : Query) → q.Answer)

-- The type of the match that stands for an exact or an approximate lookup.
def matchType (exactly : Bool) : Float := if exactly then 0.0 else 1.0

theorem search_match_type (v : Value) (exactly : Bool) (entries : List (Address × Value)) :
    search v (matchType exactly) entries =
      if exactly then exact v entries else approximate v .gt entries := by
  cases exactly with
  | true =>
    have zero : ((0.0 : Float) == 0.0) = true := by decide +kernel
    exact if_pos zero
  | false => exact search_directed v .gt 1.0 entries (.inl ⟨rfl, by decide +kernel⟩)

theorem vlookup_reading (sought table column : Argument) (mode? : Option Argument)
    (t : RangeValues) (c : Nat) (found : table.table.value answer = .ok t)
    (index : columnIndex t (column.value.value answer) = .ok c)
    (quiet : ∀ mode ∈ mode?, (mode.value.value answer).isError = false) :
    (vlookup sought table column mode?).value answer =
      pick t c (search (sought.value.value answer)
        (matchType (mode?.any fun mode => asksExact (mode.value.value answer)))
        (t.column t.range.first.col)) := by
  rw [vlookup, Reading.value_bind, Reading.value_bind, found]
  dsimp only
  rw [Reading.value_bind, index, search_match_type]
  cases mode? with
  | none => rfl
  | some mode =>
    have plain : (mode.value.value answer).error? = none := by
      simpa [Value.isError] using quiet mode rfl
    dsimp only
    rw [Reading.value_bind, plain, Option.any_some]
    cases asksExact (mode.value.value answer) <;> rfl

theorem vlookup_value (home : SheetId) (sought column : Expr) (mode? : Option Expr)
    (table : Reference) (x : SheetRange) (c : Nat)
    (bound : table.boundBy home (fun q => .ok (answer q)) = some x)
    (index : columnIndex (answer (.range x)) ((column.evaluate home).value answer) = .ok c)
    (quiet : ∀ mode ∈ mode?, ((mode.evaluate home).value answer).isError = false) :
    ((Expr.call "VLOOKUP" ([sought, .reference table, column] ++ mode?.toList)).evaluate
        home).value answer =
      pick (answer (.range x)) c (search ((sought.evaluate home).value answer)
        (matchType (mode?.any fun mode => asksExact ((mode.evaluate home).value answer)))
        ((answer (.range x)).column (answer (.range x)).range.first.col)) := by
  have called : (Expr.call "VLOOKUP" ([sought, .reference table, column] ++
      mode?.toList)).evaluate home =
      vlookup (sought.argument home) (.reference home table) (column.argument home)
        (mode?.map (·.argument home)) := by
    cases mode? <;> simp only [Expr.evaluate, arguments_of_eq] <;> rfl
  have found : (Argument.reference home table).table.value answer = .ok (answer (.range x)) := by
    rw [Argument.table, reference_table, bound]
  have placed : columnIndex (answer (.range x)) ((column.argument home).value.value answer) =
      .ok c := by
    rw [argument_value, index]
  rw [called, vlookup_reading answer _ _ _ _ _ c found placed, argument_value]
  · cases mode? with
    | none => rfl
    | some mode => rw [Option.map_some, Option.any_some, Option.any_some, argument_value]
  · intro mode given
    obtain ⟨e, known, rfl⟩ := Option.map_eq_some_iff.mp given
    rw [argument_value]
    exact quiet e known

end Call

section Table

variable (contents : Contents) (x : SheetRange)

theorem column_eq (normal : x.range.Normal) :
    (contents.rangeValues x).column x.range.first.col =
      (contents.rangeValues ⟨x.sheet, x.range.firstColumn⟩).toList := by
  have table := contents_tell x contents
  have column := contents_tell ⟨x.sheet, x.range.firstColumn⟩ contents
  refine sorted_unique (fun e => [e.1.row, e.1.col]) _ _
    ((contents.rangeValues x).to_list_ordered.filter _)
    (contents.rangeValues ⟨x.sheet, x.range.firstColumn⟩).to_list_ordered fun e => ?_
  have inside := x.range.first_column_contains normal e.1
  rw [RangeValues.column, List.mem_filter, RangeValues.mem_to_list, RangeValues.mem_to_list,
    table.cells, column.cells, decide_eq_true_eq]
  simp only [inside]
  grind

variable {contents x} in
-- A cell found in the first column leads to the cell of its row in any other column.
theorem pick_found (c : Nat) (least : 1 ≤ c) (most : c ≤ x.range.columns) (a : Address)
    (inside : x.range.contains a = true) :
    pick (contents.rangeValues x) c (some a) =
      contents.value ⟨x.sheet, ⟨a.row, x.range.first.col + c - 1⟩⟩ := by
  have covered : x.range.contains ⟨a.row, x.range.first.col + c - 1⟩ = true := by
    rw [Range.columns] at most
    rw [Range.contains_iff] at inside ⊢
    dsimp only
    omega
  exact (contents_tell x contents).get_eq _ covered

end Table

theorem lookup_by_match (contents : Contents) (home : SheetId) (sought column : Expr)
    (mode? : Option Expr) (table : Reference) (x : SheetRange) (c : Nat)
    (bound : table.boundBy home (fun q => .ok (contents.answer q)) = some x)
    (normal : x.range.Normal) (small : x.range.rows < 2 ^ 32 ∧ x.range.columns < 2 ^ 32)
    (number : ((column.evaluate home).value contents.answer).toNumber = .ok (Float.ofNat c))
    (inside : 1 ≤ c ∧ c ≤ x.range.columns)
    (quiet : ∀ mode ∈ mode?, ((mode.evaluate home).value contents.answer).isError = false) :
    let value (e : Expr) : Value := (e.evaluate home).value contents.answer
    let keys : Reference := ⟨table.sheet?, .range x.range.firstColumn⟩
    let type : Float := matchType (mode?.any fun mode => asksExact (value mode))
    let matched := value (.call "MATCH" [sought, .reference keys, .number type])
    let looked := value (.call "VLOOKUP" ([sought, .reference table, column] ++ mode?.toList))
    (matched = .error .notAvailable ∨
      ∃ m, 1 ≤ m ∧ m ≤ x.range.rows ∧ matched = .number (Float.ofNat m)) ∧
    (∀ m, 1 ≤ m → m ≤ x.range.rows → matched = .number (Float.ofNat m) →
      looked = contents.value
        ⟨x.sheet, ⟨x.range.first.row + m - 1, x.range.first.col + c - 1⟩⟩) ∧
    (matched = .error .notAvailable → looked = .error .notAvailable) := by
  intro value keys type matched looked
  have first : keys.boundBy home (fun q => .ok (contents.answer q)) =
      some ⟨x.sheet, x.range.firstColumn⟩ := by
    rw [bound_by_sheet] at bound ⊢
    obtain ⟨sheet, named, rfl⟩ := Option.map_eq_some_iff.mp bound
    exact congrArg (Option.map keys.on) named
  let found := search (value sought) type (contents.rangeValues
    ⟨x.sheet, x.range.firstColumn⟩).toList
  have matching : matched = (contents.rangeValues ⟨x.sheet, x.range.firstColumn⟩).located found :=
    match_value contents.answer home sought keys (some (.number type)) _ type first
      (RangeValues.of_list_proper _ _) rfl
  have looking : looked = pick (contents.rangeValues x) c found := by
    have index := column_index_of_nat (contents.rangeValues x) (value column) c number inside.1
      inside.2 small.2
    have called := vlookup_value contents.answer home sought column mode? table x c bound index quiet
    exact called.trans (congrArg (fun entries => pick (contents.rangeValues x) c
      (search (value sought) type entries)) (column_eq contents x normal))
  rw [matching, looking]
  cases result : found with
  | none =>
    refine ⟨.inl rfl, fun m _ _ same => ?_, fun _ => rfl⟩
    cases same
  | some a =>
    obtain ⟨v, listed⟩ := search_listed _ _ _ a result
    have held := (RangeValues.of_list_proper _ _).inside a v ((RangeValues.mem_to_list _ _).mp listed)
    obtain ⟨covered, _⟩ := (x.range.first_column_contains normal a).mp held
    have rows := ((x.range.contains_iff a).mp covered).1
    have height : x.range.rows = x.range.last.row - x.range.first.row + 1 := rfl
    have place : (contents.rangeValues ⟨x.sheet, x.range.firstColumn⟩).located (some a) =
        .number (Float.ofNat (a.row - x.range.first.row + 1)) :=
      congrArg (fun n => Value.number (Float.ofNat (n + 1))) (x.range.first_column_index a held)
    rw [place, pick_found c inside.1 inside.2 a covered]
    refine ⟨.inr ⟨_, by omega, by omega, rfl⟩, fun m least most same => ?_, fun missing => ?_⟩
    · have number := Decimal.of_nat_injective _ m (by omega) (by omega) (Value.number.inj same)
      have row : a.row = x.range.first.row + m - 1 := by omega
      rw [row]
    · cases missing

-- The keys hold a text and a gap; the row found has nothing in the second column.
theorem lookup_by_match_on_other_sheet :
    let home : SheetId := ⟨1⟩
    let rates : SheetId := ⟨2⟩
    let contents : Contents := ((((Contents.empty.withSheet "Rates" rates).set
      ⟨rates, ⟨2, 2⟩⟩ (.number 1.0)).set ⟨rates, ⟨2, 3⟩⟩ (.text "low")).set
      ⟨rates, ⟨3, 2⟩⟩ (.text "pear")).set ⟨rates, ⟨5, 2⟩⟩ (.number 5.0)
    let table : Reference := ⟨some "rates", .range ⟨⟨2, 2⟩, ⟨6, 3⟩⟩⟩
    let x : SheetRange := ⟨rates, ⟨⟨2, 2⟩, ⟨6, 3⟩⟩⟩
    let value (e : Expr) : Value := (e.evaluate home).value contents.answer
    let matched := value (.call "MATCH" [.number 7.0, .reference ⟨some "rates", .range
      ⟨⟨2, 2⟩, ⟨6, 2⟩⟩⟩, .number 1.0])
    let looked := value (.call "VLOOKUP" [.number 7.0, .reference table, .number 2.0,
      .boolean true])
    table.boundBy home (fun q => .ok (contents.answer q)) = some x ∧
      (value (.number 2.0)).toNumber = .ok (Float.ofNat 2) ∧
      matched = .number (Float.ofNat 4) ∧ looked = contents.value ⟨rates, ⟨5, 3⟩⟩ := by
  intro home rates contents table x value matched looked
  have bound : table.boundBy home (fun q => .ok (contents.answer q)) = some x := by rfl
  have number : (value (.number 2.0)).toNumber = .ok (Float.ofNat 2) :=
    congrArg Except.ok (by decide +kernel)
  have quiet : ∀ mode ∈ some (Expr.boolean true),
      ((mode.evaluate home).value contents.answer).isError = false := by
    intro mode given
    obtain rfl := Option.mem_some_iff.mp given
    rfl
  have fourth : matched = .number (Float.ofNat 4) := by rfl
  have found := lookup_by_match contents home (.number 7.0) (.number 2.0) (some (.boolean true))
    table x 2 bound (by decide) (by decide) number (by decide) quiet
  exact ⟨bound, number, fourth, found.2.1 4 (by decide) (by decide) fourth⟩

end Formula

end Spreadsheet
