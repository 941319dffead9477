import Std.Data.ExtTreeMap

-- The order of floats. Whatever is a number has a place, and numbers compare as their places.

set_option autoImplicit false

namespace Spreadsheet.Decimal

open Float.Model Float.Model.UnpackedFloat

theorem float_lt_iff (a b : Float) : a < b ↔ a.toModel.compare b.toModel = some .lt := by
  have opened : a < b ↔ (a.toModel.compare b.toModel == some .lt) = true := decide_eq_true_iff
  rw [opened, beq_iff_eq]

theorem float_beq_iff (a b : Float) : (a == b) = true ↔ a.toModel.compare b.toModel = some .eq := by
  have opened : (a == b) = (a.toModel.compare b.toModel == some .eq) := rfl
  rw [opened, beq_iff_eq]

-- Class, exponent and digits, the smallest number first.
def place : UnpackedFloat → Int × Int × Int
  | .notANumber => (0, 0, 0)
  | .infinity .negative => (-2, 0, 0)
  | .finite .negative m e _ => (-1, -e, -m)
  | .zero _ => (0, 0, 0)
  | .finite .positive m e _ => (1, e, m)
  | .infinity .positive => (2, 0, 0)

def placeCompare : Int × Int × Int → Int × Int × Int → Ordering :=
  compareLex (compareOn Prod.fst) (compareLex (compareOn (·.2.1)) (compareOn (·.2.2)))

instance : Std.TransCmp placeCompare := by
  unfold placeCompare
  infer_instance

theorem compare_negated (a b : Int) : compare (-a) (-b) = (compare a b).swap := by
  rcases Int.lt_trichotomy a b with less | same | more
  · rw [Int.compare_eq_lt.mpr less]
    exact Int.compare_eq_gt.mpr (by omega)
  · subst same
    simp
  · rw [Int.compare_eq_gt.mpr more]
    exact Int.compare_eq_lt.mpr (by omega)

theorem compare_cast (m n : Nat) : compare (m : Int) n = compare m n := by
  rcases Nat.lt_trichotomy m n with less | same | more
  · rw [Nat.compare_eq_lt.mpr less]
    exact Int.compare_eq_lt.mpr (by omega)
  · subst same
    simp
  · rw [Nat.compare_eq_gt.mpr more]
    exact Int.compare_eq_gt.mpr (by omega)

theorem compare_place (a b : UnpackedFloat) (first : a ≠ .notANumber) (second : b ≠ .notANumber) :
    a.compare b = some (placeCompare (place a) (place b)) := by
  cases a with
  | notANumber => exact absurd rfl first
  | infinity s =>
    cases b with
    | notANumber => exact absurd rfl second
    | infinity t => cases s <;> cases t <;> rfl
    | zero t => cases s <;> rfl
    | finite t m e => cases s <;> cases t <;> rfl
  | zero s =>
    cases b with
    | notANumber => exact absurd rfl second
    | infinity t => cases t <;> rfl
    | zero t => rfl
    | finite t m e => cases t <;> rfl
  | finite s m e =>
    cases b with
    | notANumber => exact absurd rfl second
    | infinity t => cases s <;> cases t <;> rfl
    | zero t => cases s <;> rfl
    | finite t n f =>
      have opened (c d : Int) (x y : Int × Int) (same : c = d) : placeCompare (c, x) (d, y) =
          (compare x.1 y.1).then (compare x.2 y.2) := by
        subst same
        simp [placeCompare, compareLex, compareOn]
      cases s with
      | negative =>
        cases t with
        | negative =>
          change some ((compare e f).then (compare m n)).swap =
            some (placeCompare (-1, -e, -m) (-1, -f, -n))
          rw [opened _ _ _ _ rfl, compare_negated, compare_negated, compare_cast,
            Ordering.swap_then]
        | positive => rfl
      | positive =>
        cases t with
        | negative => rfl
        | positive =>
          change some ((compare e f).then (compare m n)) =
            some (placeCompare (1, e, m) (1, f, n))
          rw [opened _ _ _ _ rfl, compare_cast]

theorem compare_some_iff (a b : UnpackedFloat) :
    (a.compare b).isSome = (!a.isNaN && !b.isNaN) := by
  by_cases first : a = .notANumber
  · subst first
    rfl
  by_cases second : b = .notANumber
  · subst second
    cases a <;> rfl
  rw [compare_place a b first second]
  cases a with
  | notANumber => exact absurd rfl first
  | _ =>
    cases b with
    | notANumber => exact absurd rfl second
    | _ => rfl

theorem numbers_of_some (a b : UnpackedFloat) {side : Ordering}
    (known : a.compare b = some side) : a ≠ .notANumber ∧ b ≠ .notANumber := by
  constructor
  · intro nan
    subst nan
    cases known
  · intro nan
    subst nan
    cases a <;> cases known

theorem place_of_some (a b : UnpackedFloat) (side : Ordering) (known : a.compare b = some side) :
    placeCompare (place a) (place b) = side := by
  obtain ⟨first, second⟩ := numbers_of_some a b known
  rw [compare_place a b first second, Option.some.injEq] at known
  exact known

-- What lies between the ends of a step in one direction, or at its start, is left behind in the
-- same direction.
theorem beyond_trans {α : Type} (cmp : α → α → Ordering) [Std.TransCmp cmp] (stop : Ordering)
    (strict : stop ≠ .eq) (x y z : α) (far : cmp x z = stop) (near : cmp x y ≠ stop) :
    cmp y z = stop := by
  cases stop with
  | eq => exact absurd rfl strict
  | lt =>
    have back : cmp y x = (cmp x y).swap := Std.OrientedCmp.eq_swap
    have below : (cmp y x).isLE := by
      rw [back]
      cases side : cmp x y <;> simp_all
    exact Std.TransCmp.lt_of_isLE_of_lt below far
  | gt =>
    have below : (cmp x y).isLE := by cases side : cmp x y <;> simp_all
    have back := Std.OrientedCmp.lt_of_gt far
    exact Std.OrientedCmp.gt_of_lt (Std.TransCmp.lt_of_lt_of_isLE back below)

theorem compare_beyond (stop : Ordering) (strict : stop ≠ .eq) (a b c : UnpackedFloat)
    {side : Ordering} (far : a.compare c = some stop) (near : a.compare b = some side)
    (other : side ≠ stop) : b.compare c = some stop := by
  have second := (numbers_of_some a b near).2
  have third := (numbers_of_some a c far).2
  have apart : placeCompare (place a) (place b) ≠ stop := place_of_some a b side near ▸ other
  rw [compare_place b c second third]
  exact congrArg some
    (beyond_trans placeCompare stop strict _ _ _ (place_of_some a c stop far) apart)

theorem compare_swap (a b : UnpackedFloat) : b.compare a = (a.compare b).map Ordering.swap := by
  by_cases first : a = .notANumber
  · subst first
    cases b <;> rfl
  by_cases second : b = .notANumber
  · subst second
    cases a <;> rfl
  have back : placeCompare (place b) (place a) = (placeCompare (place a) (place b)).swap :=
    Std.OrientedCmp.eq_swap
  rw [compare_place a b first second, compare_place b a second first, Option.map_some, back]

theorem float_apart (a b : Float) (less : a < b) :
    (a == b) = false ∧ (b == a) = false ∧ ¬b < a := by
  have forth := (float_lt_iff a b).mp less
  have back : b.toModel.compare a.toModel = some .gt :=
    (compare_swap _ _).trans (congrArg (Option.map Ordering.swap) forth)
  simp [← Bool.not_eq_true, float_beq_iff, float_lt_iff, forth, back]

end Spreadsheet.Decimal
