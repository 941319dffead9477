import Spreadsheet.Formula.Evaluation
import Spreadsheet.Proofs.Value.Order

-- The relational operators. They describe one order of all values that are neither errors nor
-- NaN, by kind and then by content, and lookups follow the same order.

set_option autoImplicit false

namespace Spreadsheet

namespace Value

-- Neither an error nor the number that is not a number.
def Proper : Value → Prop
  | number n => n.isNaN = false
  | error _ => False
  | _ => True

def numberPlace : Value → Int × Int × Int
  | number n => Decimal.place n.toModel.unpack
  | _ => (0, 0, 0)

def lowered : Value → String
  | text s => Text.lower s
  | _ => ""

def holdsTrue : Value → Bool
  | boolean b => b
  | _ => false

def placeOrder (v w : Value) : Ordering := Decimal.placeCompare v.numberPlace w.numberPlace

instance : Std.TransCmp placeOrder where
  eq_swap {v w} := @Std.OrientedCmp.eq_swap _ Decimal.placeCompare _ v.numberPlace w.numberPlace
  isLE_trans {u v w} :=
    @Std.TransCmp.isLE_trans _ Decimal.placeCompare _ u.numberPlace v.numberPlace w.numberPlace

-- By kind, and within a kind by content.
def order : Value → Value → Ordering :=
  compareLex (compareOn rank)
    (compareLex placeOrder (compareLex (compareOn lowered) (compareOn holdsTrue)))

instance : Std.TransCmp order := by
  unfold order
  infer_instance

section Order

variable (v w : Value)

theorem unpacked_number (n : Float) (number : n.isNaN = false) :
    n.toModel.unpack ≠ .notANumber := by
  intro nan
  have unpacked : n.toModel.unpack.isNaN = false := number
  rw [nan] at unpacked
  cases unpacked

theorem number_order (a b : Float) (first : a.isNaN = false) (second : b.isNaN = false) :
    floatCompare? a b = some ((number a).order (number b)) := by
  have places : a.toModel.compare b.toModel = some
      (Decimal.placeCompare (Decimal.place a.toModel.unpack) (Decimal.place b.toModel.unpack)) :=
    Decimal.compare_place _ _ (unpacked_number a first) (unpacked_number b second)
  rw [float_compare_eq, places]
  simp [order, compareLex, compareOn, rank, placeOrder, numberPlace, lowered, holdsTrue]

-- Values of one kind other than numbers are told apart by what follows the place.
theorem order_of_kind (same : v.rank = w.rank) (first : v.numberPlace = (0, 0, 0))
    (second : w.numberPlace = (0, 0, 0)) : v.order w =
      (compare v.lowered w.lowered).then (compare v.holdsTrue w.holdsTrue) := by
  have place : placeOrder v w = .eq := by
    rw [placeOrder, first, second]
    rfl
  simp [order, compareLex, compareOn, same, place]

theorem filled_order (first : v.Proper) (second : w.Proper) (filled : v.isEmpty = false)
    (other : w.isEmpty = false) : v.filledCompare w = v.order w := by
  cases v with
  | empty => cases filled
  | error e => exact first.elim
  | number a =>
    cases w with
    | number b => rw [filledCompare, number_order a b first second, Option.getD_some]
    | empty => cases other
    | _ => rfl
  | text s =>
    cases w with
    | text t =>
      rw [order_of_kind (text s) (text t) rfl rfl rfl]
      exact Ordering.then_eq.symm
    | empty => cases other
    | _ => rfl
  | boolean a =>
    cases w with
    | boolean b => exact (order_of_kind (boolean a) (boolean b) rfl rfl rfl).symm
    | empty => cases other
    | _ => rfl

-- An empty operand becomes a value that the order knows.
theorem or_zero_proper (first : v.Proper) (second : w.Proper) :
    (v.orZeroLike w).Proper ∧ (v.orZeroLike w).isEmpty = false := by
  have zero : (0.0 : Float).isNaN = false := by decide +kernel
  cases v with
  | empty =>
    cases w with
    | number n => exact ⟨zero, rfl⟩
    | empty => exact ⟨zero, rfl⟩
    | error e => exact second.elim
    | text s => exact ⟨trivial, rfl⟩
    | boolean b => exact ⟨trivial, rfl⟩
  | _ => exact ⟨first, rfl⟩

theorem relation_order (first : v.Proper) (second : w.Proper) :
    v.relation w = (v.orZeroLike w).order (w.orZeroLike v) := by
  obtain ⟨left, filled⟩ := or_zero_proper v w first second
  obtain ⟨right, other⟩ := or_zero_proper w v second first
  exact filled_order _ _ left right filled other

theorem relation_of_filled (first : v.Proper) (second : w.Proper) (filled : v.isEmpty = false)
    (other : w.isEmpty = false) : v.relation w = v.order w := by
  have left : v.orZeroLike w = v := by simp [orZeroLike, filled]
  have right : w.orZeroLike v = w := by simp [orZeroLike, other]
  rw [relation_order v w first second, left, right]

theorem relation_swap (first : v.Proper) (second : w.Proper) :
    w.relation v = (v.relation w).swap := by
  rw [relation_order v w first second, relation_order w v second first]
  exact Std.OrientedCmp.eq_swap

-- Where lookups know an order of two values, it is the one of the operators.
theorem relation_of_lookup (side : Ordering) (known : v.lookupCompare? w = some side) :
    v.relation w = side := by
  cases v with
  | number a =>
    cases w with
    | number b =>
      have same : floatCompare? a b = some side := known
      change (floatCompare? a b).getD .eq = side
      rw [same, Option.getD_some]
    | _ => cases known
  | text s =>
    cases w with
    | text t => exact Option.some.inj known
    | _ => cases known
  | _ => cases known

theorem relation_of_lookup_eq (equal : v.lookupEq w = true) : v.relation w = .eq := by
  cases v with
  | number a =>
    cases w with
    | number b =>
      have same : floatCompare? a b = some .eq := by
        rw [float_compare_eq]
        exact (Decimal.float_beq_iff a b).mp equal
      exact relation_of_lookup _ _ .eq same
    | _ => cases equal
  | text s =>
    cases w with
    | text t =>
      have same : Text.lower s = Text.lower t := by simpa [lookupEq] using equal
      change compare (Text.lower s) (Text.lower t) = .eq
      rw [same]
      exact Std.ReflOrd.compare_self
    | _ => cases equal
  | boolean a =>
    cases w with
    | boolean b =>
      have same : a = b := by simpa [lookupEq] using equal
      subst same
      exact Std.ReflOrd.compare_self
    | _ => cases equal
  | _ => cases equal

end Order

end Value

namespace Formula

-- The operator that asks for one side.
def operatorOf : Ordering → BinaryOp
  | .lt => .less
  | .eq => .equal
  | .gt => .greater

-- Of the three operators the one for this side is true, and the others are false.
def Sided (side : Ordering) (v w : Value) : Prop :=
  ∀ other, (operatorOf other).apply v w = .boolean (other == side)

def Holds (op : BinaryOp) (v w : Value) : Prop := op.apply v w = .boolean true

def denial : Value → Value
  | .boolean b => .boolean (!b)
  | v => v

-- Numbers are before texts and texts before truth values.
def KindBefore : Value → Value → Prop
  | .number _, .text _ => True
  | .number _, .boolean _ => True
  | .text _, .boolean _ => True
  | _, _ => False

section Operators

variable (u v w : Value)

theorem apply_comparison (op : BinaryOp) (compares : op.isComparison = true) (first : v.Proper)
    (second : w.Proper) : op.apply v w = .boolean (op.holds (v.relation w)) := by
  have plain (x : Value) (proper : x.Proper) : x.error? = none := by
    cases x with
    | error e => exact proper.elim
    | _ => rfl
  have apart : op ≠ .concat := by
    intro same
    subst same
    cases compares
  have none : (v.error? <|> w.error?) = none := by rw [plain v first, plain w second]; rfl
  rw [BinaryOp.apply, none]
  simp only [if_neg apart, compares, if_true]

theorem sided_relation (first : v.Proper) (second : w.Proper) : Sided (v.relation w) v w := by
  intro other
  have compares : (operatorOf other).isComparison = true := by cases other <;> rfl
  have same : (operatorOf other).holds (v.relation w) = (other == v.relation w) := by
    cases other <;> cases v.relation w <;> rfl
  rw [apply_comparison v w _ compares first second, same]

-- Apart from the three sides, the operators only deny one of them.
theorem apply_denied (op : BinaryOp) (side : Ordering)
    (opposite : op = .lessEqual ∧ side = .gt ∨ op = .greaterEqual ∧ side = .lt ∨
      op = .notEqual ∧ side = .eq) (first : v.Proper) (second : w.Proper) :
    op.apply v w = denial ((operatorOf side).apply v w) := by
  have compares : op.isComparison = true := by
    rcases opposite with ⟨rfl, _⟩ | ⟨rfl, _⟩ | ⟨rfl, _⟩ <;> rfl
  rw [apply_comparison v w op compares first second, sided_relation v w first second side]
  rcases opposite with ⟨rfl, rfl⟩ | ⟨rfl, rfl⟩ | ⟨rfl, rfl⟩ <;> cases v.relation w <;> rfl

theorem holds_iff (side : Ordering) (first : v.Proper) (second : w.Proper) :
    Holds (operatorOf side) v w ↔ v.relation w = side := by
  rw [Holds, sided_relation v w first second side, Value.boolean.injEq, beq_iff_eq]
  exact eq_comm

theorem sided_swapped (first : v.Proper) (second : w.Proper) :
    BinaryOp.less.apply v w = BinaryOp.greater.apply w v := by
  have left := sided_relation v w first second .lt
  have right := sided_relation w v second first .gt
  rw [v.relation_swap w first second] at right
  calc BinaryOp.less.apply v w = .boolean (.lt == v.relation w) := left
    _ = .boolean (.gt == (v.relation w).swap) := by cases v.relation w <;> rfl
    _ = BinaryOp.greater.apply w v := right.symm

theorem relation_of_kinds (before : KindBefore v w) : v.relation w = .lt := by
  cases v <;> cases w <;> first | exact before.elim | rfl

-- The operators that carry over from one value to the next.
def chaining : List BinaryOp := [.less, .equal, .lessEqual, .greater, .greaterEqual]

theorem order_chains (op : BinaryOp) (chains : op ∈ chaining)
    (first : op.holds (u.order v) = true) (second : op.holds (v.order w) = true) :
    op.holds (u.order w) = true := by
  simp only [chaining, List.mem_cons, List.not_mem_nil, or_false] at chains
  rcases chains with rfl | rfl | rfl | rfl | rfl
  · simp only [BinaryOp.holds, beq_iff_eq] at first second ⊢
    exact Std.TransCmp.lt_trans first second
  · simp only [BinaryOp.holds, beq_iff_eq] at first second ⊢
    exact Std.TransCmp.eq_trans first second
  · simp only [BinaryOp.holds, bne_iff_ne, Ordering.ne_gt_iff_isLE] at first second ⊢
    exact Std.TransCmp.isLE_trans first second
  · simp only [BinaryOp.holds, beq_iff_eq] at first second ⊢
    exact Std.TransCmp.gt_trans first second
  · simp only [BinaryOp.holds, bne_iff_ne, Ordering.ne_lt_iff_isGE] at first second ⊢
    exact Std.TransCmp.isGE_trans first second

theorem holds_filled (op : BinaryOp) (compares : op.isComparison = true) (first : v.Proper)
    (second : w.Proper) (filled : v.isEmpty = false) (other : w.isEmpty = false) :
    Holds op v w ↔ op.holds (v.order w) = true := by
  rw [Holds, apply_comparison v w op compares first second, Value.boolean.injEq,
    v.relation_of_filled w first second filled other]

-- What the relational operators say of three values.
structure Compared (u v w : Value) : Prop where
  -- Exactly one of `<`, `=` and `>` is true, also where one operand or both are empty.
  one : ∃ side, Sided side u v
  swapped : BinaryOp.less.apply u v = BinaryOp.greater.apply v u
  atMost : BinaryOp.lessEqual.apply u v = denial (BinaryOp.greater.apply u v)
  atLeast : BinaryOp.greaterEqual.apply u v = denial (BinaryOp.less.apply u v)
  different : BinaryOp.notEqual.apply u v = denial (BinaryOp.equal.apply u v)
  itself : Holds .equal u u
  total : Holds .lessEqual u v ∨ Holds .lessEqual v u
  chained : u.isEmpty = false → v.isEmpty = false → w.isEmpty = false →
    ∀ op ∈ chaining, Holds op u v → Holds op v w → Holds op u w
  kinds : KindBefore u v → Sided .lt u v
  lookup : ∀ side, u.lookupCompare? v = some side → Sided side u v
  lookup_eq : u.lookupEq v = true → Sided .eq u v

theorem one_order_of_values (first : u.Proper) (second : v.Proper) (third : w.Proper) :
    Compared u v w := by
  have sided := sided_relation u v first second
  have atMost := apply_denied u v .lessEqual .gt (.inl ⟨rfl, rfl⟩) first second
  have onSide (side : Ordering) (known : u.relation v = side) : Sided side u v := known ▸ sided
  constructor
  case one => exact ⟨u.relation v, sided⟩
  case swapped => exact sided_swapped u v first second
  case atMost => exact atMost
  case atLeast => exact apply_denied u v .greaterEqual .lt (.inr (.inl ⟨rfl, rfl⟩)) first second
  case different => exact apply_denied u v .notEqual .eq (.inr (.inr ⟨rfl, rfl⟩)) first second
  case itself =>
    have swapped := u.relation_swap u first first
    refine (holds_iff u u .eq first first).mpr ?_
    cases side : u.relation u with
    | eq => rfl
    | lt => simp [side] at swapped
    | gt => simp [side] at swapped
  case total =>
    have back := u.relation_swap v first second
    rw [Holds, Holds, apply_comparison u v _ rfl first second,
      apply_comparison v u _ rfl second first, back]
    cases u.relation v <;> simp [BinaryOp.holds]
  case chained =>
    intro filledFirst filledSecond filledThird op chains left right
    have compare : ∀ op ∈ chaining, op.isComparison = true := by decide
    have compares := compare op chains
    rw [holds_filled u v op compares first second filledFirst filledSecond] at left
    rw [holds_filled v w op compares second third filledSecond filledThird] at right
    rw [holds_filled u w op compares first third filledFirst filledThird]
    exact order_chains u v w op chains left right
  case kinds => exact fun before => onSide .lt (relation_of_kinds u v before)
  case lookup => exact fun side known => onSide side (u.relation_of_lookup v side known)
  case lookup_eq => exact fun equal => onSide .eq (u.relation_of_lookup_eq v equal)

-- Texts that differ in letter case only, before a truth value.
theorem one_order_of_values_of_all_kinds :
    let n := Value.number (-2.5)
    n.Proper ∧ (Value.text "Oak").Proper ∧ Value.empty.Proper ∧
      Compared n (.text "Oak") (.text "oAK") ∧ Compared .empty n (.boolean false) := by
  intro n
  have number : n.Proper := by
    have proper : (-2.5 : Float).isNaN = false := by decide +kernel
    exact proper
  exact ⟨number, trivial, trivial, one_order_of_values n _ _ number trivial trivial,
    one_order_of_values _ n _ trivial number trivial⟩

-- Nothing is as much as no text and as much as zero, which are not the same.
example : Holds .equal .empty (.text "") ∧ Holds .equal .empty (.number 0.0) ∧
    Holds .less (.number 0.0) (.text "") := ⟨rfl, rfl, rfl⟩

end Operators

end Formula

end Spreadsheet
