import Spreadsheet.Value.Order
import Spreadsheet.Proofs.Decimal.Comparison

-- The order that approximate lookups follow, on the values that have one: numbers other than the
-- one that is not a number, and texts.

set_option autoImplicit false

namespace Spreadsheet

namespace Value

theorem float_compare_eq (a b : Float) : floatCompare? a b = a.toModel.compare b.toModel := by
  have back : b.toModel.compare a.toModel = (a.toModel.compare b.toModel).map Ordering.swap :=
    Decimal.compare_swap _ _
  simp only [floatCompare?, Decimal.float_lt_iff, Decimal.float_beq_iff, back]
  cases a.toModel.compare b.toModel with
  | none => rfl
  | some side => cases side <;> rfl

-- Two numbers or two texts.
def comparable : Value → Value → Bool
  | number a, number b => !a.isNaN && !b.isNaN
  | text _, text _ => true
  | _, _ => false

theorem lookup_compare_some_iff (v w : Value) : (v.lookupCompare? w).isSome = v.comparable w := by
  cases v with
  | number a =>
    cases w with
    | number b =>
      rw [lookupCompare?, float_compare_eq]
      exact Decimal.compare_some_iff _ _
    | _ => rfl
  | text s => cases w <;> rfl
  | _ => cases w <;> rfl

theorem lookup_compare_swap (v w : Value) :
    w.lookupCompare? v = (v.lookupCompare? w).map Ordering.swap := by
  cases v with
  | number a =>
    cases w with
    | number b =>
      simp only [lookupCompare?, float_compare_eq]
      exact Decimal.compare_swap _ _
    | _ => rfl
  | text s =>
    cases w with
    | text t =>
      have back : textCompare t s = (textCompare s t).swap :=
        Std.OrientedOrd.eq_swap
      exact congrArg some back
    | _ => rfl
  | _ => cases w <;> rfl

theorem lookup_beyond_trans (stop : Ordering) (strict : stop ≠ .eq) (x y z : Value)
    (far : x.lookupCompare? z = some stop) (near : x.lookupCompare? y ≠ some stop)
    (ordered : x.comparable y = true) : y.lookupCompare? z = some stop := by
  rw [← lookup_compare_some_iff] at ordered
  obtain ⟨side, known⟩ := Option.isSome_iff_exists.mp ordered
  have other : side ≠ stop := fun same => near (same ▸ known)
  cases x with
  | number a =>
    cases y with
    | number b =>
      cases z with
      | number c =>
        simp only [lookupCompare?, float_compare_eq] at far known ⊢
        exact Decimal.compare_beyond stop strict _ _ _ far known other
      | _ => simp [lookupCompare?] at far
    | _ => simp [lookupCompare?] at known
  | text s =>
    cases y with
    | text t =>
      cases z with
      | text u =>
        simp only [lookupCompare?, textCompare, Option.some.injEq] at far known ⊢
        exact Decimal.beyond_trans compare stop strict _ _ _ far (known ▸ other)
      | _ => simp [lookupCompare?] at far
    | _ => simp [lookupCompare?] at known
  | _ => simp [lookupCompare?] at far

theorem comparable_refl (v w : Value) (ordered : v.comparable w = true) :
    v.lookupCompare? v = some .eq := by
  have some : (v.lookupCompare? v).isSome := by
    rw [lookup_compare_some_iff]
    cases v with
    | number a => cases w <;> simp_all [comparable]
    | text s => rfl
    | _ => simp [comparable] at ordered
  obtain ⟨side, known⟩ := Option.isSome_iff_exists.mp some
  have swapped := v.lookup_compare_swap v
  rw [known, Option.map_some, Option.some.injEq] at swapped
  cases side with
  | lt => cases swapped
  | eq => exact known
  | gt => cases swapped

theorem comparable_between (v w u : Value) (first : v.comparable u = true)
    (second : w.comparable u = true) : v.comparable w = true := by
  cases u with
  | number c => cases v <;> cases w <;> simp_all [comparable]
  | text s => cases v <;> cases w <;> simp_all [comparable]
  | _ => cases v <;> simp [comparable] at first

end Value

end Spreadsheet
