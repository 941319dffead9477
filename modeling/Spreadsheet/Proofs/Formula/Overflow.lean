import Spreadsheet.Proofs.Decimal.Finite
import Spreadsheet.Proofs.Formula.Arguments
import Spreadsheet.Proofs.Formula.Entries
import Spreadsheet.Proofs.Formula.Reading
import Spreadsheet.Proofs.Formula.Scanned
import Spreadsheet.Proofs.Formula.Trees

-- Infinite numbers in values. Every sum, every product and every lookup gives a finite number or an
-- error, so an infinite number stems from a numeral that is too large for a float: a literal, or a
-- text after a sign. Signs and the functions that choose between their arguments hand it on.

set_option autoImplicit false

namespace Spreadsheet.Formula

open Spreadsheet.Formula.Parser

-- No infinite number, and none that is not a number.
def Finite (v : Value) : Prop := ∀ n, v = .number n → n.isFinite = true

-- Answers with finite values, and tables with coordinates of 32 bits.
def Tame : Answers
  | .cell _, v => Finite v
  | .range _, t => (∀ entry ∈ t.toList, Finite entry.2) ∧
      t.range.last.row < 2 ^ 32 ∧ t.range.last.col < 2 ^ 32
  | .sheet _ _, _ => True

-- Where an infinite number comes from.
inductive Overflows (home : SheetId) : Expr → Float → Prop where
  | numeral (n : Float) (infinite : n.isFinite = false) : Overflows home (.number n) n
  | text (operand : Expr) (s : String) (n : Float)
      (gives : (operand.evaluate home).CanGive Tame (.text s))
      (reads : (Value.text s).asNumber? = some n) (infinite : n.isFinite = false) :
      Overflows home (.negate operand) (-n)
  | negate (operand : Expr) (n : Float) (inside : Overflows home operand n) :
      Overflows home (.negate operand) (-n)
  | chosen (function : String) (condition : Expr) (branches : List Expr) (branch : Expr) (n : Float)
      (named : Function.named? function = some Function.ifThen) (member : branch ∈ branches)
      (inside : Overflows home branch n) :
      Overflows home (.call function (condition :: branches)) n
  | kept (function : String) (args : List Expr) (arg : Expr) (n : Float)
      (named : Function.named? function = some Function.ifError) (member : arg ∈ args)
      (inside : Overflows home arg n) : Overflows home (.call function args) n

-- What the numbers are that a tree can have for its value.
def Contained (home : SheetId) (e : Expr) : Prop :=
  ∀ n, (e.evaluate home).CanGive Tame (.number n) →
    n.isNaN = false ∧ (n.isFinite = true ∨ Overflows home e n)

section Values

theorem finite_not_nan (n : Float) (finite : n.isFinite = true) : n.isNaN = false :=
  Decimal.number_of_finite n.toModel.unpack finite

theorem finite_of_float (n : Float) : Finite (.ofFloat n) := by
  intro m same
  unfold Value.ofFloat at same
  split at same
  · rename_i finite
    cases same
    exact finite
  · cases same

theorem finite_error (e : ErrorKind) : Finite (.error e) := fun _ same => nomatch same

theorem arithmetic_finite (op : BinaryOp) (a b : Float) : Finite (arithmetic op a b) := by
  unfold arithmetic
  split
  · exact finite_of_float _
  · exact finite_of_float _
  · exact finite_of_float _
  · split
    · exact finite_error _
    · exact finite_of_float _

theorem apply_finite (op : BinaryOp) (a b : Value) : Finite (op.apply a b) := by
  unfold BinaryOp.apply
  split
  · exact finite_error _
  split
  · exact fun _ same => nomatch same
  split
  · exact fun _ same => nomatch same
  split
  · exact arithmetic_finite op _ _
  · exact finite_error _
  · exact finite_error _

theorem read_number (cs : List Char) (n : Float) (read : Decimal.readFloat? cs = some n) :
    n.isNaN = false := by
  unfold Decimal.readFloat? at read
  split at read
  all_goals
    obtain ⟨m, _, same⟩ := Option.map_eq_some_iff.mp read
    subst same
  · exact Decimal.to_float_number m
  · exact (Decimal.neg_nan _).trans (Decimal.to_float_number m)
  · exact Decimal.to_float_number m

-- A sign is put before a number, before a text that is a numeral, or before 0 or 1.
theorem negated_number (v : Value) (n : Float) (same : negated v = .number n) :
    (∃ m, v = .number m ∧ n = -m) ∨
      (∃ s m, v = .text s ∧ (Value.text s).asNumber? = some m ∧ n = -m) ∨ n.isFinite = true := by
  have signed (m : Float) (kept : Value.number (-m) = .number n) : n = -m :=
    (Value.number.inj kept).symm
  cases v with
  | number m => exact .inl ⟨m, rfl, signed m same⟩
  | text s =>
    simp only [negated, Value.toNumber] at same
    cases read : (Value.text s).asNumber? with
    | none =>
      rw [read] at same
      cases same
    | some m =>
      rw [read] at same
      exact .inr (.inl ⟨s, m, rfl, read, signed m same⟩)
  | boolean b =>
    have finite : (-(if b then 1.0 else 0.0) : Float).isFinite = true := by
      cases b <;> decide +kernel
    exact .inr (.inr (signed _ same ▸ finite))
  | empty =>
    have finite : (-0.0 : Float).isFinite = true := by decide +kernel
    exact .inr (.inr (signed _ same ▸ finite))
  | error e => cases same

end Values

section Functions

variable (v : Value)

theorem error_gives (e : ErrorKind) (gives : (Reading.done (.error e)).CanGive Tame v) :
    Finite v := by
  cases gives
  exact finite_error e

theorem sum_finite (total : Float) (args : List Argument)
    (gives : (Function.sumFrom total args).CanGive Tame v) : Finite v := by
  induction args generalizing total with
  | nil =>
    cases gives
    exact finite_of_float total
  | cons arg rest ih =>
    obtain ⟨operand, _, later⟩ := Reading.can_give_bind Tame _ _ v gives
    cases operand with
    | range values => exact ih _ later
    | scalar w =>
      dsimp only at later
      cases read : w.asNumber? with
      | none =>
        rw [read] at later
        exact ih _ later
      | some n =>
        rw [read] at later
        exact ih _ later
    | unresolved =>
      exact error_gives v _ later

theorem concatenate_finite (text : String) (args : List Argument)
    (gives : (Function.concatenateFrom text args).CanGive Tame v) : Finite v := by
  induction args generalizing text with
  | nil =>
    cases gives
    exact fun _ same => nomatch same
  | cons arg rest ih =>
    obtain ⟨operand, _, later⟩ := Reading.can_give_bind Tame _ _ v gives
    cases operand with
    | unresolved =>
      exact error_gives v _ later
    | range values =>
      dsimp only at later
      cases joined : Function.joinFrom text (values.toList.map Prod.snd) with
      | error e =>
        rw [joined] at later
        exact error_gives v e later
      | ok longer =>
        rw [joined] at later
        exact ih longer later
    | scalar w =>
      dsimp only at later
      cases joined : Function.joinFrom text [w] with
      | error e =>
        rw [joined] at later
        exact error_gives v e later
      | ok longer =>
        rw [joined] at later
        exact ih longer later

theorem finite_of_is_error (error : v.isError = true) : Finite v := by
  intro n same
  subst same
  cases error

theorem choose_gives (condition yes : Argument) (no? : Option Argument)
    (gives : (Function.choose condition yes no?).CanGive Tame v) :
    Finite v ∨ ∃ branch ∈ yes :: no?.toList, branch.value.CanGive Tame v := by
  obtain ⟨w, _, later⟩ := Reading.can_give_bind Tame _ _ v gives
  by_cases error : w.isError = true
  · rw [if_pos error] at later
    cases later
    exact .inl (finite_of_is_error v error)
  rw [if_neg error] at later
  by_cases holds : w.truthy = true
  · rw [if_pos holds] at later
    exact .inr ⟨yes, List.mem_cons_self, later⟩
  rw [if_neg holds] at later
  cases no? with
  | some no => exact .inr ⟨no, by simp, later⟩
  | none =>
    cases later
    exact .inl fun _ same => nomatch same

theorem or_else_gives (value fallback : Argument)
    (gives : (Function.orElse value fallback).CanGive Tame v) :
    Finite v ∨ ∃ arg ∈ [value, fallback], arg.value.CanGive Tame v := by
  obtain ⟨w, first, later⟩ := Reading.can_give_bind Tame _ _ v gives
  by_cases error : w.isError = true
  · rw [if_pos error] at later
    exact .inr ⟨fallback, by simp, later⟩
  · rw [if_neg error] at later
    cases later
    exact .inr ⟨value, by simp, first⟩

-- A table that a function is given holds finite values at coordinates of 32 bits.
theorem table_tame (arg : Argument) (t : RangeValues)
    (gives : arg.table.CanGive Tame (.ok t)) :
    (∀ entry ∈ t.toList, Finite entry.2) ∧
      t.range.last.row < 2 ^ 32 ∧ t.range.last.col < 2 ^ 32 := by
  cases arg with
  | computed w =>
    obtain ⟨_, _, later⟩ := Reading.can_give_bind Tame _ _ _ gives
    cases later
  | reference home r =>
    obtain ⟨sheet?, _, later⟩ := Reading.can_give_bind Tame _ _ _ gives
    cases sheet? with
    | none => cases later
    | some sheet =>
      obtain ⟨found, asked, last⟩ := Reading.can_give_bind Tame _ _ _ later
      cases last
      obtain ⟨answer, tame, same⟩ := asked
      exact same ▸ tame

theorem position_below (t : RangeValues) (a : Address) (place : Nat)
    (row : t.range.last.row < 2 ^ 32) (col : t.range.last.col < 2 ^ 32)
    (found : t.position? a = some place) : place < 2 ^ 128 := by
  unfold RangeValues.position? Range.index? at found
  split at found
  · rename_i inside
    simp only [Range.contains, Bool.and_eq_true, decide_eq_true_eq] at inside
    have rows : a.row - t.range.first.row ≤ 2 ^ 32 := by omega
    have columns : t.range.columns ≤ 2 ^ 32 := by
      unfold Range.columns
      omega
    have product := Nat.mul_le_mul rows columns
    simp only [Option.map_some, Option.some.injEq] at found
    omega
  · cases found

theorem counted_finite (t : RangeValues) (found : Option Address) (n : Nat)
    (row : t.range.last.row < 2 ^ 32) (col : t.range.last.col < 2 ^ 32)
    (place : found.bind t.position? = some n) : Finite (.number (Float.ofNat n)) := by
  obtain ⟨a, _, position⟩ := Option.bind_eq_some_iff.mp place
  intro m same
  cases same
  exact Decimal.of_nat_finite n (position_below t a n row col position)

theorem match_finite (sought range : Argument) (type? : Option Argument)
    (gives : (matchPosition sought range type?).CanGive Tame v) : Finite v := by
  obtain ⟨w, _, later⟩ := Reading.can_give_bind Tame _ _ v gives
  obtain ⟨found, table, later⟩ := Reading.can_give_bind Tame _ _ v later
  cases found with
  | error e =>
    exact error_gives v e later
  | ok t =>
    obtain ⟨_, row, col⟩ := table_tame range t table
    cases type? with
    | none =>
      obtain ⟨_, rfl, later⟩ := Reading.can_give_bind Tame _ _ v later
      dsimp only at later
      cases place : (search w 1.0 t.toList).bind t.position? with
      | none =>
        rw [place] at later
        exact error_gives v _ later
      | some n =>
        rw [place] at later
        cases later
        exact counted_finite t _ n row col place
    | some type =>
      obtain ⟨number, _, later⟩ := Reading.can_give_bind Tame _ _ v later
      cases number with
      | error e =>
        exact error_gives v e later
      | ok type =>
        dsimp only at later
        cases place : (search w type t.toList).bind t.position? with
        | none =>
          rw [place] at later
          exact error_gives v _ later
        | some n =>
          rw [place] at later
          cases later
          exact counted_finite t _ n row col place

theorem pick_finite (t : RangeValues) (column : Nat) (a? : Option Address)
    (entries : ∀ entry ∈ t.toList, Finite entry.2) : Finite (pick t column a?) := by
  cases a? with
  | none => exact finite_error _
  | some a =>
    simp only [pick, RangeValues.get]
    cases held : Entries.find? t.entries ⟨a.row, t.range.first.col + column - 1⟩ with
    | none => exact fun _ same => nomatch same
    | some e => exact entries e ((Entries.find_some_iff _ t.ascending _ e).mp held).1

theorem vlookup_finite (sought table column : Argument) (mode? : Option Argument)
    (gives : (vlookup sought table column mode?).CanGive Tame v) : Finite v := by
  obtain ⟨w, _, later⟩ := Reading.can_give_bind Tame _ _ v gives
  obtain ⟨found, given, later⟩ := Reading.can_give_bind Tame _ _ v later
  cases found with
  | error e =>
    exact error_gives v e later
  | ok t =>
    obtain ⟨entries, _⟩ := table_tame table t given
    obtain ⟨number, _, later⟩ := Reading.can_give_bind Tame _ _ v later
    cases index : columnIndex t number with
    | error e =>
      rw [index] at later
      exact error_gives v e later
    | ok place =>
      rw [index] at later
      cases mode? with
      | none =>
        cases later
        exact pick_finite t place _ entries
      | some mode =>
        obtain ⟨m, _, later⟩ := Reading.can_give_bind Tame _ _ v later
        cases failed : m.error? with
        | some e =>
          rw [failed] at later
          exact error_gives v e later
        | none =>
          rw [failed] at later
          dsimp only at later
          split at later
          · cases later
            exact pick_finite t place _ entries
          · cases later
            exact pick_finite t place _ entries

theorem wrong_count_finite (gives : Function.wrongCount.CanGive Tame v) : Finite v := by
  exact error_gives v _ gives

theorem match_apply_finite (args : List Argument)
    (gives : (Function.matchFirst.apply args).CanGive Tame v) : Finite v := by
  match args with
  | [sought, range] => exact match_finite v sought range none gives
  | [sought, range, type] => exact match_finite v sought range (some type) gives
  | [] | [_] | _ :: _ :: _ :: _ :: _ => exact wrong_count_finite v gives

theorem lookup_apply_finite (args : List Argument)
    (gives : (Function.verticalLookup.apply args).CanGive Tame v) : Finite v := by
  match args with
  | [sought, table, column] => exact vlookup_finite v sought table column none gives
  | [sought, table, column, mode] => exact vlookup_finite v sought table column (some mode) gives
  | [] | [_] | [_, _] | _ :: _ :: _ :: _ :: _ :: _ => exact wrong_count_finite v gives

theorem if_apply_gives (args : List Argument)
    (gives : (Function.ifThen.apply args).CanGive Tame v) :
    Finite v ∨ ∃ branch ∈ args.tail, branch.value.CanGive Tame v := by
  match args with
  | [condition, yes] => exact choose_gives v condition yes none gives
  | [condition, yes, no] => exact choose_gives v condition yes (some no) gives
  | [] | [_] | _ :: _ :: _ :: _ :: _ => exact .inl (wrong_count_finite v gives)

theorem if_error_apply_gives (args : List Argument)
    (gives : (Function.ifError.apply args).CanGive Tame v) :
    Finite v ∨ ∃ arg ∈ args, arg.value.CanGive Tame v := by
  match args with
  | [value, fallback] => exact or_else_gives v value fallback gives
  | [] | [_] | _ :: _ :: _ :: _ => exact .inl (wrong_count_finite v gives)

-- A call has a finite value, unless it hands on the value of an argument that it has chosen.
theorem call_gives (function : String) (args : List Argument)
    (gives : (Function.call function args).CanGive Tame v) :
    Finite v ∨
      (Function.named? function = some Function.ifThen ∧
        ∃ branch ∈ args.tail, branch.value.CanGive Tame v) ∨
      (Function.named? function = some Function.ifError ∧
        ∃ arg ∈ args, arg.value.CanGive Tame v) := by
  unfold Function.call at gives
  cases found : Function.named? function with
  | none =>
    rw [found] at gives
    exact .inl (error_gives v _ gives)
  | some f =>
    rw [found] at gives
    dsimp only at gives
    split at gives
    · have member : f ∈ Function.all := List.mem_of_find?_eq_some found
      simp only [Function.all, List.mem_cons, List.not_mem_nil, or_false] at member
      rcases member with rfl | rfl | rfl | rfl | rfl | rfl | rfl
      · exact .inl (concatenate_finite v "" args gives)
      · exact .inl (concatenate_finite v "" args gives)
      · exact (if_apply_gives v args gives).imp_right fun branch => .inl ⟨rfl, branch⟩
      · exact (if_error_apply_gives v args gives).imp_right fun arg => .inr ⟨rfl, arg⟩
      · exact .inl (match_apply_finite v args gives)
      · exact .inl (sum_finite v 0.0 args gives)
      · exact .inl (lookup_apply_finite v args gives)
    · exact .inl (wrong_count_finite v gives)

end Functions

section Trees

variable (home : SheetId)

theorem contained_of_finite (e : Expr)
    (finite : ∀ v, (e.evaluate home).CanGive Tame v → Finite v) : Contained home e := by
  intro n gives
  have value := finite (.number n) gives n rfl
  exact ⟨finite_not_nan n value, .inl value⟩

theorem contained_reference (r : Reference) : Contained home (.reference r) := by
  apply contained_of_finite
  intro v gives
  have asked (k : Key) (gives : (Reading.query (.cell k)).CanGive Tame v) : Finite v := by
    obtain ⟨answer, tame, same⟩ := gives
    exact same ▸ tame
  obtain ⟨sheet?, _, later⟩ := Reading.can_give_bind Tame _ _ v gives
  cases sheet? with
  | none =>
    cases later
    exact finite_error _
  | some sheet =>
    dsimp only at later
    split at later
    · exact asked _ later
    · split at later
      · exact asked _ later
      · cases later
        exact finite_error _

theorem contained_negate (operand : Expr) (inside : Contained home operand) :
    Contained home (.negate operand) := by
  intro n gives
  obtain ⟨v, given, last⟩ := Reading.can_give_bind Tame _ _ _ gives
  cases negated_number v n last with
  | inl number =>
    obtain ⟨m, rfl, rfl⟩ := number
    obtain ⟨number, known⟩ := inside m given
    refine ⟨(Decimal.neg_nan m).trans number, known.imp (Decimal.neg_finite m).trans ?_⟩
    exact Overflows.negate operand m
  | inr rest =>
    cases rest with
    | inl text =>
      obtain ⟨s, m, rfl, reads, rfl⟩ := text
      have number := read_number _ m reads
      refine ⟨(Decimal.neg_nan m).trans number, ?_⟩
      by_cases finite : m.isFinite = true
      · exact .inl ((Decimal.neg_finite m).trans finite)
      · exact .inr (.text operand s m given reads (Bool.eq_false_iff.mpr finite))
    | inr finite => exact ⟨finite_not_nan n finite, .inl finite⟩

theorem contained_binary (op : BinaryOp) (left right : Expr) :
    Contained home (.binary op left right) := by
  apply contained_of_finite
  intro v gives
  obtain ⟨a, _, later⟩ := Reading.can_give_bind Tame _ _ v gives
  obtain ⟨b, _, last⟩ := Reading.can_give_bind Tame _ _ v later
  cases last
  exact apply_finite op a b

theorem contained_call (function : String) (args : List Expr)
    (each : ∀ arg ∈ args, Contained home arg) : Contained home (.call function args) := by
  intro n gives
  have called : (Function.call function (args.map (Expr.argument home))).CanGive Tame
      (.number n) := by
    rw [← arguments_of_eq]
    exact gives
  cases call_gives (.number n) function _ called with
  | inl finite => exact ⟨finite_not_nan n (finite n rfl), .inl (finite n rfl)⟩
  | inr handed =>
    cases handed with
    | inl branches =>
      obtain ⟨named, branch, member, given⟩ := branches
      cases args with
      | nil => cases member
      | cons condition branches =>
        obtain ⟨e, inside, rfl⟩ := List.mem_map.mp member
        rw [argument_value] at given
        obtain ⟨number, known⟩ := each e (List.mem_cons_of_mem condition inside) n given
        exact ⟨number, known.imp_right (.chosen function condition branches e n named inside)⟩
    | inr kept =>
      obtain ⟨named, arg, member, given⟩ := kept
      obtain ⟨e, inside, rfl⟩ := List.mem_map.mp member
      rw [argument_value] at given
      obtain ⟨number, known⟩ := each e inside n given
      exact ⟨number, known.imp_right (.kept function args e n named inside)⟩

theorem contained_leaf (token : Token) (e : Expr) (alone : leaf? token = some e)
    (sound : ∀ n, token = .number n → n.isNaN = false) : Contained home e := by
  cases token with
  | number n =>
    cases alone
    intro m gives
    cases gives
    refine ⟨sound n rfl, ?_⟩
    by_cases finite : n.isFinite = true
    · exact .inl finite
    · exact .inr (.numeral n (Bool.eq_false_iff.mpr finite))
  | cell a =>
    cases alone
    exact contained_reference home _
  | text s =>
    cases alone
    exact fun _ gives => nomatch gives
  | boolean b =>
    cases alone
    exact fun _ gives => nomatch gives
  | error e =>
    cases alone
    exact fun _ gives => nomatch gives
  | _ => cases alone

theorem contained_built (given : Token → Prop) (meaning : Meaning)
    (sound : ∀ n, given (.number n) → n.isNaN = false)
    (trees : ∀ s e, meaning s = some (.ok e) → Contained home e) (e : Expr)
    (built : Built given meaning e) : Contained home e := by
  induction built with
  | leaf token e present alone =>
    exact contained_leaf home token e alone fun n same => sound n (same ▸ present)
  | sheetCell sheet a before present => exact contained_reference home _
  | range sheet? other? first last left right alike => exact contained_reference home _
  | name s present free => exact fun _ gives => nomatch gives
  | defined s e present stands => exact trees s e stands
  | negate operand inside ih => exact contained_negate home operand ih
  | binary op left right before after => exact contained_binary home op left right
  | call s args present each ih => exact contained_call home (Text.upper s) args ih

theorem contained_read (meaning : Meaning)
    (trees : ∀ s e, meaning s = some (.ok e) → Contained home e) (cs : List Char) (e : Expr)
    (read : parseBody meaning cs = .ok e) : Contained home e := by
  obtain ⟨_, built⟩ := parse_body_makes meaning cs e read
  apply contained_built home _ meaning _ trees e built
  intro n present
  obtain ended | ⟨chars, spells⟩ := spells_of_member _ _ cs (.number n) present
  · cases ended
  · cases spells with
    | plain _ _ all sound =>
      obtain ⟨m, rfl⟩ := sound
      exact Decimal.to_float_number m

end Trees

-- The value of a formula is never a number that is not one, and it is infinite only where a numeral
-- that is too large for a float was handed on, by a sign or by a choice between values. Sums,
-- products, quotients and lookups give no infinite number.
theorem only_numerals_overflow {σ : Type} (names : Names) (text : String) (d : Expr)
    (read : parseWith names text = .ok d) (home : SheetId)
    (resolver : (q : Query) → Attempt σ q.Answer)
    (tame : ∀ q s answer t, (resolver q).run.run s = (.ok answer, t) → Tame q answer)
    (s t : σ) (n : Float)
    (ended : ((d.evaluate home).run resolver).run.run s = (.ok (.number n), t)) :
    n.isNaN = false ∧ (n.isFinite = true ∨ Overflows home d n) := by
  have trees (name : String) (e : Expr) (stands : (names.get? name).map parse = some (.ok e)) :
      Contained home e := by
    obtain ⟨source, _, parsed⟩ := Option.map_eq_some_iff.mp stands
    exact contained_read home (fun _ => none) (fun _ _ none => nomatch none) (body source) e parsed
  have contained := contained_read home _ trees (body text) d read
  exact contained n (Reading.can_give_run Tame resolver tame _ s t _ ended)

-- A text that is too large a numeral, in a cell, after a sign and kept by a choice.
theorem only_numerals_overflow_from_cell :
    let d : Expr := .call "IFERROR" [.negate (.reference ⟨none, .cell ⟨1, 1⟩⟩), .number 1.0]
    let cells (q : Query) : Attempt Unit q.Answer :=
      match q with
      | .cell _ => return .text "1e999"
      | .range _ => return .ofList (.single ⟨1, 1⟩) []
      | .sheet _ _ => return none
    parseWith .empty "=IFERROR(-A1,1)" = .ok d ∧
      ((d.evaluate ⟨1⟩).run cells).run.run () = (.ok (.number (-Decimal.infinity)), ()) ∧
      (-Decimal.infinity).isNaN = false ∧ Overflows ⟨1⟩ d (-Decimal.infinity) := by
  intro d cells
  have read : parseWith .empty "=IFERROR(-A1,1)" = .ok d := by
    apply Expr.read_of_same
    decide +kernel
  have tame (q : Query) (s : Unit) (answer : q.Answer) (t : Unit)
      (replied : (cells q).run.run s = (.ok answer, t)) : Tame q answer := by
    cases q with
    | cell k =>
      cases replied
      exact fun _ same => nomatch same
    | range r =>
      cases replied
      exact ⟨fun entry member => absurd member List.not_mem_nil, by decide, by decide⟩
    | sheet home name => trivial
  have ended : ((d.evaluate ⟨1⟩).run cells).run.run () =
      (.ok (.number (-Decimal.infinity)), ()) := rfl
  obtain ⟨number, known⟩ := only_numerals_overflow .empty _ d read ⟨1⟩ cells tame () () _ ended
  have infinite : ¬(-Decimal.infinity).isFinite = true := by decide +kernel
  exact ⟨read, ended, number, known.resolve_left infinite⟩

-- Neither a literal nor a sign turns an overflow into an error, as a sum does.
theorem numerals_overflow :
    (∃ d, parse "=1e999" = .ok d ∧ ∀ home, d.evaluate home = .done (.number Decimal.infinity)) ∧
      (∃ d, parse "=-\"1e999\"" = .ok d ∧
        ∀ home, d.evaluate home = .done (.number (-Decimal.infinity))) ∧
      (∃ d, parse "=0+\"1e999\"" = .ok d ∧ ∀ home, d.evaluate home = .done (.error .value)) ∧
      Decimal.infinity.isFinite = false ∧ (-Decimal.infinity).isFinite = false := by
  have literal : parse "=1e999" = .ok (.number Decimal.infinity) := by
    apply Expr.read_of_same
    decide +kernel
  have sign : parse "=-\"1e999\"" = .ok (.negate (.text "1e999")) := by
    apply Expr.read_of_same
    decide +kernel
  have sum : parse "=0+\"1e999\"" = .ok (.binary .add (.number 0.0) (.text "1e999")) := by
    apply Expr.read_of_same
    decide +kernel
  refine ⟨⟨_, literal, fun _ => rfl⟩, ⟨_, sign, fun _ => ?_⟩, ⟨_, sum, fun _ => ?_⟩, ?_, ?_⟩
  · rfl
  · rfl
  · decide +kernel
  · decide +kernel

end Spreadsheet.Formula
