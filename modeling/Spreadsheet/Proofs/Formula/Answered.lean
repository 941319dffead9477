import Spreadsheet.Proofs.Formula.References
import Spreadsheet.Proofs.Formula.Arguments

-- What references give under fixed answers, in each of the three ways to read them, by what they
-- are bound to.

set_option autoImplicit false

namespace Spreadsheet.Formula

variable (answer : (q : Query) → q.Answer) (home : SheetId) (r : Reference)

theorem bound_by_sheet : r.boundBy home (fun q => .ok (answer q)) =
    ((sheetOf home r.sheet?).value answer).map r.on := by
  unfold Reference.boundBy
  cases r.sheet? <;> rfl

theorem reference_table : (r.table home).value answer =
    match r.boundBy home fun q => .ok (answer q) with
    | none => .error .ref
    | some x => .ok (answer (.range x)) := by
  rw [bound_by_sheet, Reference.table, Reading.value_bind]
  cases (sheetOf home r.sheet?).value answer <;> rfl

theorem reference_operand : (r.operand home).value answer =
    match r.boundBy home fun q => .ok (answer q) with
    | none => .unresolved
    | some x =>
      match r.target with
      | .cell a => .scalar (answer (.cell ⟨x.sheet, a⟩))
      | .range _ => .range (answer (.range x)) := by
  rw [bound_by_sheet, Reference.operand, Reading.value_bind]
  cases (sheetOf home r.sheet?).value answer with
  | none => rfl
  | some sheet =>
    cases r with
    | mk sheet? target => cases target <;> rfl

theorem reference_value : (r.value home).value answer =
    match r.boundBy home fun q => .ok (answer q) with
    | none => .error .ref
    | some x =>
      if x.range.isSingle then answer (.cell ⟨x.sheet, x.range.first⟩) else .error .value := by
  rw [bound_by_sheet, Reference.value, Reading.value_bind]
  cases (sheetOf home r.sheet?).value answer with
  | none => rfl
  | some sheet =>
    cases r with
    | mk sheet? target =>
      cases target with
      | cell a => simp [Reference.on, Target.extent, Range.isSingle, Range.single]; rfl
      | range range =>
        simp only [Reference.on, Target.extent, Option.map_some]
        split <;> rfl

end Spreadsheet.Formula
