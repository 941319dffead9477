import Spreadsheet.Decimal.Numeral
import Spreadsheet.Proofs.Decimal.WholeNumbers

-- Floats that are infinite and floats that are no numbers. What is read from a numeral is always a
-- number, though it may be infinite, and a sign changes neither.

set_option autoImplicit false

namespace Spreadsheet.Decimal

open Float.Model Float.Model.UnpackedFloat

section Packing

theorem finite_of_components (s : Sign) (x : BitVec 11) (m : BitVec 52) (below : x ≠ -1#11) :
    (UnpackedFloat.unpack binary64 (packComponents binary64 s x m)).isFinite = true := by
  simp only [UnpackedFloat.unpack, unpackMantissa_packComponents, unpackExponent_packComponents]
  rw [if_neg below]
  split
  · split <;> rfl
  · rfl

theorem unpack_infinity (s : Sign) :
    UnpackedFloat.unpack binary64 (packedInfinity binary64 s) = .infinity s := by
  cases s <;> rfl

theorem exponent_in_reach (n : Nat) (small : n + 1 < 2048) : BitVec.ofNat 11 n ≠ -1#11 := by
  intro same
  have number := congrArg BitVec.toNat same
  have top : (-1#11).toNat = 2047 := by decide
  rw [BitVec.toNat_ofNat, top] at number
  omega

theorem pack_finite (s : Sign) (m : Nat) (e : Int) (positive : 0 < m) :
    UnpackedFloat.pack binary64 (.finite s m e positive) =
      if 2048 ≤ (e + (1023 : Nat) + (52 : Nat)).toNat + 1 then packedInfinity binary64 s
      else if m.log2 + 1 = binary64.mantissaBits then
        packComponents binary64 s (BitVec.ofNat 11 (e + (1023 : Nat) + (52 : Nat)).toNat)
          (BitVec.ofNat 52 m)
      else packComponents binary64 s 0#11 (BitVec.ofNat 52 m) := by
  have bias : binary64.exponentBias = 1023 := by decide
  simp only [UnpackedFloat.pack, bias]

theorem unpack_pack_finite (s : Sign) (m : Nat) (e : Int) (positive : 0 < m) (reach : e ≤ 971) :
    (UnpackedFloat.unpack binary64
      (UnpackedFloat.pack binary64 (.finite s m e positive))).isFinite = true := by
  have room : (e + (1023 : Nat) + (52 : Nat)).toNat + 1 < 2048 := by omega
  rw [pack_finite, if_neg (Nat.not_le.mpr room)]
  by_cases normal : m.log2 + 1 = binary64.mantissaBits
  · rw [if_pos normal]
    exact finite_of_components s _ _ (exponent_in_reach _ room)
  · rw [if_neg normal]
    exact finite_of_components s 0#11 _ (by decide)

-- An exponent out of reach makes a float infinite.
theorem unpack_pack_overflow (s : Sign) (m : Nat) (e : Int) (positive : 0 < m) (beyond : 971 < e) :
    UnpackedFloat.unpack binary64 (UnpackedFloat.pack binary64 (.finite s m e positive)) =
      .infinity s := by
  rw [pack_finite, if_pos (by omega)]
  exact unpack_infinity s

theorem number_of_finite (u : UnpackedFloat) (finite : u.isFinite = true) : u.isNaN = false := by
  cases u <;> first | rfl | cases finite

-- Packing makes a number of no float that is none, and takes it from none that is.
theorem unpack_pack_nan (u : UnpackedFloat) :
    (UnpackedFloat.unpack binary64 (UnpackedFloat.pack binary64 u)).isNaN = u.isNaN := by
  cases u with
  | notANumber => rfl
  | infinity s => exact congrArg UnpackedFloat.isNaN (unpack_infinity s)
  | zero s => exact congrArg UnpackedFloat.isNaN unpack_packedZero
  | finite s m e positive =>
    by_cases reach : e ≤ 971
    · exact number_of_finite _ (unpack_pack_finite s m e positive reach)
    · rw [unpack_pack_overflow s m e positive (by omega)]
      rfl

theorem exponent_below (x : BitVec 11) (low : x ≠ -1#11) : x.toNat ≤ 2046 := by
  have most := x.isLt
  have top : (-1#11).toNat = 2047 := by decide
  have apart : x.toNat ≠ 2047 := fun same => low (BitVec.eq_of_toNat_eq (same.trans top.symm))
  omega

theorem unpacked_exponent (b : BitVec 64) (s : Sign) (m : Nat) (e : Int) (positive : 0 < m)
    (same : UnpackedFloat.unpack binary64 b = .finite s m e positive) : e ≤ 971 := by
  have bias : binary64.exponentBias = 1023 := by decide
  simp only [UnpackedFloat.unpack, bias] at same
  split at same
  · split at same <;> cases same
  rename_i low
  have most := exponent_below _ low
  split at same
  · split at same
    · cases same
    · rename_i none _
      have exponent := (UnpackedFloat.finite.inj same).2.2
      rw [none, BitVec.toNat_zero] at exponent
      omega
  · have exponent := (UnpackedFloat.finite.inj same).2.2
    omega

end Packing

section Signs

variable (n : Float)

theorem neg_unpacked : (-n).toModel.unpack =
    UnpackedFloat.unpack binary64 (UnpackedFloat.pack binary64 n.toModel.unpack.neg) := rfl

theorem neg_nan : (-n).isNaN = n.isNaN := by
  have kept : n.toModel.unpack.neg.isNaN = n.toModel.unpack.isNaN := by
    cases n.toModel.unpack <;> rfl
  exact (congrArg UnpackedFloat.isNaN (neg_unpacked n)).trans ((unpack_pack_nan _).trans kept)

theorem neg_finite : (-n).isFinite = n.isFinite := by
  have opened : (-n).isFinite = (UnpackedFloat.unpack binary64
      (UnpackedFloat.pack binary64 n.toModel.unpack.neg)).isFinite := rfl
  have plain : n.isFinite = n.toModel.unpack.isFinite := rfl
  rw [opened, plain]
  cases same : n.toModel.unpack with
  | notANumber => rfl
  | infinity s => exact (congrArg UnpackedFloat.isFinite (unpack_infinity (-s))).trans rfl
  | zero s => exact (congrArg UnpackedFloat.isFinite unpack_packedZero).trans rfl
  | finite s m e positive =>
    exact unpack_pack_finite (-s) m e positive (unpacked_exponent _ s m e positive same)

end Signs

section FromZero

-- Zero, from either side, and what lies above it.
def fromZero : UnpackedFloat → Bool
  | .zero _ => true
  | .infinity .positive => true
  | .finite .positive _ _ _ => true
  | _ => false

theorem number_of_from_zero (u : UnpackedFloat) (above : fromZero u = true) : u.isNaN = false := by
  cases u <;> first | rfl | cases above

theorem from_zero_not_below (u : UnpackedFloat) (s : Sign) (above : fromZero u = true) :
    u.compare (.zero s) ≠ some .lt := by
  cases u with
  | notANumber => cases above
  | zero t => simp [UnpackedFloat.compare]
  | infinity t =>
    cases t with
    | negative => cases above
    | positive =>
      intro same
      cases same
  | finite t =>
    cases t with
    | negative => cases above
    | positive =>
      intro same
      cases same

theorem components_from_zero (x : BitVec 11) (m : BitVec 52) (below : x ≠ -1#11) :
    fromZero (UnpackedFloat.unpack binary64 (packComponents binary64 .positive x m)) = true := by
  have sign : Sign.ofBitVec Sign.positive.toBitVec = .positive := rfl
  simp only [UnpackedFloat.unpack, unpackMantissa_packComponents, unpackExponent_packComponents,
    unpackSign_packComponents, sign]
  rw [if_neg below]
  split
  · split <;> rfl
  · rfl

theorem unpack_pack_from_zero (u : UnpackedFloat) (above : fromZero u = true) :
    fromZero (UnpackedFloat.unpack binary64 (UnpackedFloat.pack binary64 u)) = true := by
  cases u with
  | notANumber => cases above
  | zero s => exact congrArg fromZero unpack_packedZero
  | infinity s =>
    cases s with
    | negative => cases above
    | positive => exact congrArg fromZero (unpack_infinity .positive)
  | finite s m e positive =>
    cases s with
    | negative => cases above
    | positive =>
      rw [pack_finite]
      split
      · exact congrArg fromZero (unpack_infinity .positive)
      · rename_i room
        split
        · exact components_from_zero _ _ (exponent_in_reach _ (Nat.not_le.mp room))
        · exact components_from_zero 0#11 _ (by decide)

end FromZero

section Numerals

theorem rounded_from_zero (m : Nat) (e : Int) (accuracy : Accuracy) :
    fromZero (roundWithAccuracy binary64 .positive m e accuracy) = true := by
  simp only [roundWithAccuracy]
  split <;> rfl

theorem scientific_from_zero (m : Nat) (e : Int) :
    fromZero (UnpackedFloat.ofScientific binary64 m e) = true := by
  unfold UnpackedFloat.ofScientific
  split
  · rfl
  split
  · rfl
  split
  · rfl
  split
  · exact rounded_from_zero _ _ _
  · exact rounded_from_zero _ _ _

theorem powers_of_ten : (Float.exactlyRepresentablePowersOfTen.all fun power =>
    power.isFinite && 0.0 < power) = true := by decide +kernel

theorem small_scientific_from_zero (n : Nat) (below : n < 2 ^ 53) (power : Float)
    (finite : power.isFinite = true) (positive : 0.0 < power) :
    fromZero (n.toUInt64.toFloat * power).toModel.unpack = true ∧
      fromZero (n.toUInt64.toFloat / power).toModel.unpack = true := by
  have unpacked : n.toUInt64.toFloat.toModel.unpack = whole n below := by
    rw [to_float_packed n below]
    exact unpack_pack_whole n below
  have product : (n.toUInt64.toFloat * power).toModel.unpack =
      UnpackedFloat.unpack binary64 (UnpackedFloat.pack binary64 (UnpackedFloat.mul binary64
        n.toUInt64.toFloat.toModel.unpack power.toModel.unpack)) := rfl
  have quotient : (n.toUInt64.toFloat / power).toModel.unpack =
      UnpackedFloat.unpack binary64 (UnpackedFloat.pack binary64 (UnpackedFloat.div binary64
        n.toUInt64.toFloat.toModel.unpack power.toModel.unpack)) := rfl
  have held : power.toModel.unpack.isFinite = true := finite
  rw [float_lt_iff, Float.Model.compare] at positive
  rw [product, quotient, unpacked]
  cases same : power.toModel.unpack with
  | notANumber => simp [same, UnpackedFloat.isFinite] at held
  | infinity s => simp [same, UnpackedFloat.isFinite] at held
  | zero s =>
    rw [same] at positive
    cases positive
  | finite s m e above =>
    cases s with
    | negative =>
      rw [same] at positive
      cases positive
    | positive =>
      by_cases zero : n = 0
      · subst zero
        exact ⟨unpack_pack_from_zero _ rfl, unpack_pack_from_zero _ rfl⟩
      · simp only [whole, dif_neg zero, UnpackedFloat.mul, UnpackedFloat.div]
        exact ⟨unpack_pack_from_zero _ (rounded_from_zero _ _ _),
          unpack_pack_from_zero _ (rounded_from_zero _ _ _)⟩

-- A numeral has no sign, so that it denotes zero or more, and perhaps more than every finite float.
theorem to_float_from_zero (n : Numeral) : fromZero n.toFloat.toModel.unpack = true := by
  have scientific (m : Nat) (negative : Bool) (e : Nat) :
      fromZero (Float.ofScientific m negative e).toModel.unpack = true := by
    unfold Float.ofScientific
    split
    · rename_i small
      have power := Array.all_eq_true.mp powers_of_ten e (Nat.lt_succ_of_le small.2)
      simp only [Bool.and_eq_true, decide_eq_true_eq] at power
      have both := small_scientific_from_zero m small.1 _ power.1 power.2
      dsimp only
      split
      · exact both.2
      · exact both.1
    · exact unpack_pack_from_zero _ (scientific_from_zero m _)
  simp only [Numeral.toFloat]
  split
  · rfl
  split
  · rfl
  split
  · rfl
  · exact scientific _ _ _

theorem to_float_number (n : Numeral) : n.toFloat.isNaN = false :=
  number_of_from_zero _ (to_float_from_zero n)

theorem to_float_not_negative (n : Numeral) : ¬n.toFloat < 0.0 := by
  rw [float_lt_iff]
  exact from_zero_not_below _ .positive (to_float_from_zero n)

end Numerals

section Rounding

theorem shifted_mantissa (x : ExtendedMantissa) (k : Nat) :
    (x >>> k).mantissa ≤ x.mantissa := by
  change (k.repeat ExtendedMantissa.shiftRightOne x).mantissa ≤ x.mantissa
  induction k with
  | zero => exact Nat.le_refl _
  | succ k ih => exact Nat.le_trans (Nat.div_le_self _ 2) ih

theorem rounded_mantissa (x : ExtendedMantissa) : x.roundedMantissa ≤ x.mantissa + 1 := by
  unfold ExtendedMantissa.roundedMantissa Accuracy.roundToNearestEven
  split <;> omega

theorem log2_next (m : Nat) : (m + 1).log2 ≤ m.log2 + 1 := by
  by_cases zero : m = 0
  · subst zero
    decide
  · have below : m < 2 ^ (m.log2 + 1) := Nat.lt_log2_self
    have next : m + 1 < 2 ^ (m.log2 + 1 + 1) := by
      rw [Nat.pow_succ]
      omega
    exact Nat.le_of_lt_succ ((Nat.log2_lt (Nat.succ_ne_zero m)).mpr next)

theorem log2_le_of_le (m n : Nat) (less : m ≤ n) : m.log2 ≤ n.log2 := by
  by_cases more : n.log2 < m.log2
  · have nonzero : m ≠ 0 := by
      rintro rfl
      simp at more
    exact absurd (lt_of_log2_lt n m nonzero more) (Nat.not_lt.mpr less)
  · omega

-- Rounding moves the exponent no further than the number has digits.
theorem round_finite (s : Sign) (m : Nat) (e : Int) (accuracy : Accuracy) (few : m.log2 ≤ 400)
    (low : e ≤ 0) : (UnpackedFloat.unpack binary64 (UnpackedFloat.pack binary64
      (roundWithAccuracy binary64 s m e accuracy))).isFinite = true := by
  have least : binary64.minExponent = -1074 := by decide
  have places : binary64.mantissaBits = 53 := by decide
  have start : (ExtendedMantissa.ofMantissaAndAccuracy m accuracy).mantissa = m := by
    unfold ExtendedMantissa.ofMantissaAndAccuracy
    split <;> rfl
  have kept : (shiftToTargetExponent binary64 m e accuracy).1.roundedMantissa ≤ m + 1 := by
    refine Nat.le_trans (rounded_mantissa _) (Nat.succ_le_succ ?_)
    exact Nat.le_trans (shifted_mantissa _ _) (Nat.le_of_eq start)
  have digits : (shiftToTargetExponent binary64 m e accuracy).1.roundedMantissa.log2 ≤ 401 := by
    have next := Nat.le_trans (log2_le_of_le _ _ kept) (log2_next m)
    omega
  simp only [roundWithAccuracy]
  split
  · exact congrArg UnpackedFloat.isFinite unpack_packedZero
  · apply unpack_pack_finite
    simp only [shiftToTargetExponent, shiftToExponent, Format.targetExponent, totalExponent, least,
      places] at digits ⊢
    omega

theorem of_nat_finite (n : Nat) (below : n < 2 ^ 128) : (Float.ofNat n).isFinite = true := by
  by_cases small : n < 2 ^ 53
  · have unpacked : (Float.ofNat n).isFinite = (whole n small).isFinite :=
      congrArg UnpackedFloat.isFinite (of_nat_unpacked n small)
    rw [unpacked, whole]
    split <;> rfl
  · have nonzero : n ≠ 0 := by omega
    have places : n.log2 < 128 := (Nat.log2_lt nonzero).mpr below
    have opened : Float.ofNat n =
        .ofModel (.pack (UnpackedFloat.ofScientific binary64 n 0)) := by
      change Float.ofScientific n false 0 = _
      rw [Float.ofScientific, dif_neg (fun both => small both.1)]
      rfl
    have digits : (n <<< 53 * 10 ^ 0).log2 ≤ 400 := by
      rw [Nat.pow_zero, Nat.mul_one, Nat.shiftLeft_eq, log2_moved n 53 nonzero]
      omega
    have scientific : UnpackedFloat.ofScientific binary64 n 0 =
        roundWithAccuracy binary64 .positive (n <<< 53 * 10 ^ 0) (-53) .exact := by
      have above : ¬(0 : Int) > 2 ^ binary64.exponentBits := by decide
      have under : ¬(0 : Int) < -((2 ^ binary64.exponentBits : Int) + n.log2) := by omega
      rw [UnpackedFloat.ofScientific, dif_neg nonzero, if_neg above, if_neg under,
        if_pos (Int.le_refl 0)]
      rfl
    have rounded := round_finite .positive (n <<< 53 * 10 ^ 0) (-53) .exact digits (by decide)
    have packed (u : UnpackedFloat) : (Float.ofModel (.pack u)).isFinite =
        (UnpackedFloat.unpack binary64 (UnpackedFloat.pack binary64 u)).isFinite := rfl
    rw [opened, scientific, packed, rounded]

end Rounding

end Spreadsheet.Decimal
