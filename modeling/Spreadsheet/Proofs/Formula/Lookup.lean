import Spreadsheet.Proofs.Formula.Answered
import Spreadsheet.Proofs.Formula.Tables
import Spreadsheet.Proofs.Value.Order

-- Searches in ranges. An approximate scan passes over entries that have no order with the value
-- sought and stops at the first one beyond it, so its result is the last entry before that one.

set_option autoImplicit false

namespace Spreadsheet.Formula

section Scan

variable (sought : Value) (stop : Ordering)

-- On the side of the value sought where the scan stops.
def Beyond (e : Address × Value) : Prop := e.2.lookupCompare? sought = some stop

instance (e : Address × Value) : Decidable (Beyond sought stop e) := by
  unfold Beyond
  infer_instance

def comparables (entries : List (Address × Value)) : List (Address × Value) :=
  entries.filter fun e => e.2.comparable sought

-- What comes before the first entry beyond the value sought.
def reached (entries : List (Address × Value)) : List (Address × Value) :=
  entries.takeWhile fun e => ¬Beyond sought stop e

theorem approximate_from_eq (best : Option Address) (entries : List (Address × Value)) :
    approximateFrom sought stop best entries =
      ((reached sought stop (comparables sought entries)).getLast?.map Prod.fst).or best := by
  induction entries generalizing best with
  | nil => rfl
  | cons e rest ih =>
    obtain ⟨a, v⟩ := e
    have ordered : v.comparable sought = (v.lookupCompare? sought).isSome :=
      (v.lookup_compare_some_iff sought).symm
    cases known : v.lookupCompare? sought with
    | none =>
      have passed : comparables sought ((a, v) :: rest) = comparables sought rest :=
        List.filter_cons_of_neg (by simp [ordered, known])
      simp only [approximateFrom, known, ih, passed]
    | some side =>
      have kept : comparables sought ((a, v) :: rest) = (a, v) :: comparables sought rest :=
        List.filter_cons_of_pos (by simp [ordered, known])
      by_cases here : side = stop
      · have stopped : reached sought stop ((a, v) :: comparables sought rest) = [] :=
          List.takeWhile_cons_of_neg (by simp [Beyond, known, here])
        simp only [approximateFrom, known, kept, stopped, if_pos here]
        rfl
      · have met : reached sought stop ((a, v) :: comparables sought rest) =
            (a, v) :: reached sought stop (comparables sought rest) :=
          List.takeWhile_cons_of_pos (by simp [Beyond, known, here])
        simp only [approximateFrom, known, kept, met, if_neg here, ih, List.getLast?_cons]
        cases (reached sought stop (comparables sought rest)).getLast? <;> rfl

theorem approximate_eq (entries : List (Address × Value)) : approximate sought stop entries =
    (reached sought stop (comparables sought entries)).getLast?.map Prod.fst := by
  rw [approximate, approximate_from_eq, Option.or_none]

-- A type other than 0 is a direction.
theorem search_directed (type : Float) (entries : List (Address × Value))
    (directed : stop = .gt ∧ 0.0 < type ∨ stop = .lt ∧ type < 0.0) :
    search sought type entries = approximate sought stop entries := by
  rcases directed with ⟨rfl, positive⟩ | ⟨rfl, negative⟩
  · have differs : (type == 0.0) = false := (Decimal.float_apart 0.0 type positive).2.1
    simp only [search, differs, gt_iff_lt, if_pos positive]
    rfl
  · obtain ⟨differs, _, above⟩ := Decimal.float_apart type 0.0 negative
    simp only [search, differs, gt_iff_lt, if_neg above]
    rfl

theorem search_listed (type : Float) (entries : List (Address × Value)) (a : Address)
    (found : search sought type entries = some a) : ∃ v, (a, v) ∈ entries := by
  have scanned (stop : Ordering) (found : approximate sought stop entries = some a) :
      ∃ v, (a, v) ∈ entries := by
    rw [approximate_eq] at found
    obtain ⟨⟨b, v⟩, last, rfl⟩ := Option.map_eq_some_iff.mp found
    exact ⟨v, (List.mem_filter.mp
      ((List.takeWhile_sublist _).subset (List.mem_of_getLast? last))).1⟩
  by_cases zero : (type == 0.0) = true
  · rw [search, if_pos zero] at found
    obtain ⟨⟨b, v⟩, first, rfl⟩ := Option.map_eq_some_iff.mp found
    exact ⟨v, List.mem_of_find?_eq_some first⟩
  · rw [search, if_neg zero] at found
    by_cases positive : type > 0.0
    · rw [if_pos positive] at found
      exact scanned .gt found
    · rw [if_neg positive] at found
      exact scanned .lt found

theorem comparables_listing (t : RangeValues) (proper : t.Proper) :
    comparables sought t.toList = comparables sought t.listing := by
  rw [comparables, comparables, t.to_list_eq proper, List.filter_filter]
  refine List.filter_congr fun e _ => ?_
  cases e.2 <;> simp [Value.comparable, Value.isEmpty]

end Scan

section Position

-- The number of a cell of the range, counted row by row from 1.
def RangeValues.located (t : RangeValues) : Option Address → Value
  | none => .error .notAvailable
  | some a => .number (Float.ofNat (t.range.cells.idxOf a + 1))

theorem position_found (t : RangeValues) (proper : t.Proper) (sought : Value) (type : Float) :
    (search sought type t.toList).bind t.position? =
      (search sought type t.toList).map fun a => t.range.cells.idxOf a + 1 := by
  cases found : search sought type t.toList with
  | none => rfl
  | some a =>
    obtain ⟨v, listed⟩ := search_listed _ _ _ a found
    have inside := proper.inside a v ((t.mem_to_list (a, v)).mp listed)
    rw [Option.bind_some, RangeValues.position?, t.range.index_eq a inside]
    rfl

variable (answer : (q : Query) → q.Answer)

theorem match_position_value (t : RangeValues) (sought range : Argument)
    (type? : Option Argument) (type : Float) (proper : t.Proper)
    (table : range.table.value answer = .ok t)
    (typed : (type?.elim (.ok 1.0) fun type => (type.value.value answer).toNumber) = .ok type) :
    (matchPosition sought range type?).value answer =
      t.located (search (sought.value.value answer) type t.toList) := by
  have position := position_found t proper (sought.value.value answer) type
  rw [matchPosition, Reading.value_bind, Reading.value_bind, table]
  cases type? with
  | none =>
    have read : (pure (.ok 1.0) : Reading (Except ErrorKind Float)).value answer = .ok type := typed
    dsimp only
    rw [Reading.value_bind, read]
    dsimp only
    rw [position]
    cases search (sought.value.value answer) type t.toList <;> rfl
  | some kind =>
    have read : (Value.toNumber <$> kind.value).value answer = .ok type :=
      (Reading.value_bind answer kind.value _).trans typed
    dsimp only
    rw [Reading.value_bind, read]
    dsimp only
    rw [position]
    cases search (sought.value.value answer) type t.toList <;> rfl

theorem match_value (home : SheetId) (sought : Expr) (range : Reference) (type? : Option Expr)
    (x : SheetRange) (type : Float)
    (bound : range.boundBy home (fun q => .ok (answer q)) = some x)
    (proper : (answer (.range x)).Proper)
    (typed : (type?.elim (.ok 1.0) fun kind => ((kind.evaluate home).value answer).toNumber) =
      .ok type) :
    ((Expr.call "MATCH" ([sought, .reference range] ++ type?.toList)).evaluate home).value answer =
      (answer (.range x)).located
        (search ((sought.evaluate home).value answer) type (answer (.range x)).toList) := by
  have called : (Expr.call "MATCH" ([sought, .reference range] ++ type?.toList)).evaluate home =
      matchPosition (sought.argument home) (.reference home range)
        (type?.map (·.argument home)) := by
    cases type? <;> simp only [Expr.evaluate, arguments_of_eq] <;> rfl
  have kind : ((type?.map (·.argument home)).elim (.ok 1.0) fun kind =>
      (kind.value.value answer).toNumber) = .ok type := by
    rw [← typed]
    cases type? with
    | none => rfl
    | some kind => simp only [Option.map_some, Option.elim_some, argument_value]
  have table : (Argument.reference home range).table.value answer = .ok (answer (.range x)) := by
    rw [Argument.table, reference_table, bound]
  rw [called, match_position_value answer _ _ _ _ type proper table kind, argument_value]

end Position

end Spreadsheet.Formula
