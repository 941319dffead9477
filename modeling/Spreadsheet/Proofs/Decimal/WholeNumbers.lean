import Mathlib
import Spreadsheet.Proofs.Decimal.Comparison

-- Whole numbers as floats. Below 2 ^ 53 each has a float of its own, in the order of the numbers,
-- and leads back to itself.

set_option autoImplicit false

namespace Spreadsheet.Decimal

open Float.Model Float.Model.UnpackedFloat

abbrev binary64 : Format := .binary64

section Digits

-- The leading digit of a mantissa that fills its 53 places.
abbrev Full (m : Nat) : Prop := m.log2 = 52

theorem full_iff (m : Nat) : Full m ↔ 2 ^ 52 ≤ m ∧ m < 2 ^ 53 := by
  by_cases zero : m = 0
  · simp [zero, Full]
  · exact Nat.log2_eq_iff zero

theorem log2_moved (m k : Nat) (nonzero : m ≠ 0) : (m * 2 ^ k).log2 = m.log2 + k := by
  induction k with
  | zero => simp
  | succ k ih =>
    have moved : m * 2 ^ (k + 1) = 2 * (m * 2 ^ k) := by ring
    have held : m * 2 ^ k ≠ 0 := Nat.mul_ne_zero nonzero (Nat.ne_of_gt (Nat.two_pow_pos k))
    rw [moved, Nat.log2_two_mul held, ih]
    omega

-- Places that hold no digit are dropped without a trace.
theorem drop_moved (m k : Nat) :
    ExtendedMantissa.ofMantissaAndAccuracy (m * 2 ^ k) .exact >>> k =
      ExtendedMantissa.ofMantissaAndAccuracy m .exact := by
  change k.repeat ExtendedMantissa.shiftRightOne ⟨m * 2 ^ k, false, false⟩ = ⟨m, false, false⟩
  induction k generalizing m with
  | zero => simp [Nat.repeat]
  | succ k ih =>
    have moved : m * 2 ^ (k + 1) = m * 2 * 2 ^ k := by ring
    rw [Nat.repeat, moved, ih]
    simp [ExtendedMantissa.shiftRightOne]

theorem target_of_full (m : Nat) (e : Int) (full : Full m) (low : -1074 ≤ e) :
    binary64.targetExponent (totalExponent m e) = e := by
  have least : binary64.minExponent = -1074 := by decide
  have places : binary64.mantissaBits = 53 := by decide
  simp only [Format.targetExponent, totalExponent, full, least, places]
  omega

theorem full_positive (m : Nat) (full : Full m) : 0 < m :=
  Nat.lt_of_lt_of_le (Nat.two_pow_pos 52) ((full_iff m).mp full).1

-- A full mantissa is its own rounding, however many empty places follow it.
theorem round_exact (s : Sign) (m k : Nat) (e : Int) (full : Full m) (low : -1074 ≤ e) :
    roundWithAccuracy binary64 s (m * 2 ^ k) (e - k) .exact =
      .finite s m e (full_positive m full) := by
  have nonzero : m ≠ 0 := Nat.ne_of_gt (full_positive m full)
  have target : binary64.targetExponent (totalExponent (m * 2 ^ k) (e - k)) = e := by
    have same : totalExponent (m * 2 ^ k) (e - k) = totalExponent m e := by
      simp only [totalExponent, log2_moved m k nonzero]
      omega
    rw [same, target_of_full m e full low]
  have places : (e - (e - k)).toNat = k := by omega
  have first : shiftToTargetExponent binary64 (m * 2 ^ k) (e - k) .exact =
      (ExtendedMantissa.ofMantissaAndAccuracy m .exact, e) := by
    simp only [shiftToTargetExponent, shiftToExponent, target, places, drop_moved, Prod.mk.injEq,
      true_and]
    omega
  have second : shiftToTargetExponent binary64 m e .exact =
      (ExtendedMantissa.ofMantissaAndAccuracy m .exact, e) := by
    have still := drop_moved m 0
    rw [Nat.pow_zero, Nat.mul_one] at still
    simp only [shiftToTargetExponent, shiftToExponent, target_of_full m e full low, Int.sub_self,
      Int.toNat_zero, still, Int.natCast_zero, Int.add_zero]
  have rounded : (ExtendedMantissa.ofMantissaAndAccuracy m .exact).roundedMantissa = m := rfl
  have mantissa : (ExtendedMantissa.ofMantissaAndAccuracy m .exact).mantissa = m := rfl
  simp only [roundWithAccuracy, first, rounded, second, mantissa, dif_neg nonzero]

theorem full_moved (n : Nat) (nonzero : n ≠ 0) (below : n < 2 ^ 53) :
    Full (n * 2 ^ (52 - n.log2)) := by
  have places : n.log2 < 53 := (Nat.log2_lt nonzero).mpr below
  rw [Full, log2_moved n _ nonzero]
  omega

-- A number below 2 ^ 53, its leading digit moved to the top place.
def whole (n : Nat) (below : n < 2 ^ 53) : UnpackedFloat :=
  if zero : n = 0 then .zero .positive
  else .finite .positive (n * 2 ^ (52 - n.log2)) (n.log2 - 52)
    (full_positive _ (full_moved n zero below))

theorem of_nat_whole (n : Nat) (below : n < 2 ^ 53) :
    UnpackedFloat.ofNat binary64 n = whole n below := by
  by_cases zero : n = 0
  · subst zero
    rfl
  have places : n.log2 < 53 := (Nat.log2_lt zero).mpr below
  have sign : compare (n : Int) 0 = .gt := by
    rw [Int.compare_eq_gt]
    omega
  have target : binary64.targetExponent (totalExponent n 0) = n.log2 - 52 := by
    have least : binary64.minExponent = -1074 := by decide
    have digits : binary64.mantissaBits = 53 := by decide
    simp only [Format.targetExponent, totalExponent, least, digits]
    omega
  have up : ((0 : Int) - (n.log2 - 52)).toNat = 52 - n.log2 := by omega
  have down : (0 : Int) - (52 - n.log2 : Nat) = n.log2 - 52 := by omega
  have itself := round_exact .positive (n * 2 ^ (52 - n.log2)) 0 (n.log2 - 52)
    (full_moved n zero below) (by omega)
  rw [Nat.pow_zero, Nat.mul_one] at itself
  simp only [UnpackedFloat.ofNat, UnpackedFloat.ofInt, UnpackedFloat.normalize, sign,
    Int.toNat_natCast, UnpackedFloat.round, target, decreaseExponent, up, down, Nat.shiftLeft_eq,
    whole, dif_neg zero]
  simpa using itself

end Digits

section Packing

-- Packing keeps a full mantissa whose exponent is in reach.
theorem unpack_pack_full (s : Sign) (m : Nat) (e : Int) (full : Full m) (low : -1074 ≤ e)
    (high : e ≤ 971) : UnpackedFloat.unpack binary64
      (UnpackedFloat.pack binary64 (.finite s m e (full_positive m full))) =
        .finite s m e (full_positive m full) := by
  obtain ⟨least, most⟩ := (full_iff m).mp full
  have bias : binary64.exponentBias = 1023 := by decide
  have shift : (e + (1023 : Nat) + (52 : Nat)).toNat = (e + 1075).toNat := by omega
  have fits : ¬2 ^ 11 ≤ (e + 1075).toNat + 1 := by omega
  have digits : m.log2 + 1 = binary64.mantissaBits := by rw [full]; rfl
  have packed : UnpackedFloat.pack binary64 (.finite s m e (full_positive m full)) =
      packComponents binary64 s (BitVec.ofNat _ (e + 1075).toNat) (BitVec.ofNat _ m) := by
    simp only [UnpackedFloat.pack, bias, shift, if_neg fits, if_pos digits]
  have exponent : (BitVec.ofNat 11 (e + 1075).toNat).toNat = (e + 1075).toNat := by
    rw [BitVec.toNat_ofNat, Nat.mod_eq_of_lt (by omega)]
  have mantissa : (1#1 ++ BitVec.ofNat 52 m).toNat = m := by
    have rest : m % 2 ^ 52 < 2 ^ 52 := Nat.mod_lt m (Nat.two_pow_pos 52)
    rw [BitVec.toNat_append, BitVec.toNat_ofNat, BitVec.toNat_ofNat,
      ← Nat.shiftLeft_add_eq_or_of_lt rest, Nat.shiftLeft_eq]
    omega
  have finite : BitVec.ofNat 11 (e + 1075).toNat ≠ -1#11 := by
    intro same
    have number := congrArg BitVec.toNat same
    rw [exponent] at number
    have top : (-1#11).toNat = 2047 := by decide
    omega
  have normal : BitVec.ofNat 11 (e + 1075).toNat ≠ 0#11 := by
    intro same
    have number := congrArg BitVec.toNat same
    rw [exponent, BitVec.toNat_zero] at number
    omega
  rw [packed]
  simp only [UnpackedFloat.unpack, unpackMantissa_packComponents, unpackExponent_packComponents,
    unpackSign_packComponents, Sign.ofBitVec_toBitVec]
  rw [if_neg finite, if_neg normal]
  have back : (((e + 1075).toNat : Int) - ((1023 : Nat) + (52 : Nat))) = e := by omega
  simp only [exponent, mantissa, bias, back]

theorem unpack_pack_whole (n : Nat) (below : n < 2 ^ 53) :
    UnpackedFloat.unpack binary64 (UnpackedFloat.pack binary64 (whole n below)) =
      whole n below := by
  by_cases zero : n = 0
  · subst zero
    exact unpack_packedZero
  · have places : n.log2 < 53 := (Nat.log2_lt zero).mpr below
    simp only [whole, dif_neg zero]
    exact unpack_pack_full .positive _ _ (full_moved n zero below) (by omega) (by omega)

theorem one_unpacked : (Float.ofBits 0x3FF0000000000000).toModel.unpack =
    .finite .positive (2 ^ 52) (-52) (Nat.two_pow_pos 52) := rfl

theorem times_one (n : Nat) (below : n < 2 ^ 53) :
    UnpackedFloat.mul binary64 (whole n below) (.finite .positive (2 ^ 52) (-52)
      (Nat.two_pow_pos 52)) = whole n below := by
  by_cases zero : n = 0
  · subst zero
    rfl
  · simp only [whole, dif_neg zero, UnpackedFloat.mul]
    exact round_exact .positive _ 52 _ (full_moved n zero below) (by omega)

theorem to_float_packed (n : Nat) (below : n < 2 ^ 53) :
    n.toUInt64.toFloat = .ofModel (.pack (whole n below)) := by
  have small : n.toUInt64.toNat = n := UInt64.toNat_ofNat_of_lt' (Nat.lt_trans below (by decide))
  have opened : n.toUInt64.toFloat =
      .ofModel (.pack (UnpackedFloat.ofNat binary64 n.toUInt64.toNat)) := rfl
  rw [opened, small, of_nat_whole n below]

-- A small number becomes a float as it is, and then is taken times one.
theorem of_nat_packed (n : Nat) (below : n < 2 ^ 53) :
    Float.ofNat n = .ofModel (.pack (whole n below)) := by
  have fits : n < 2 ^ 53 ∧ 0 ≤ 22 := ⟨below, Nat.zero_le 22⟩
  have times : Float.ofNat n = n.toUInt64.toFloat * Float.ofBits 0x3FF0000000000000 := by
    change Float.ofScientific n false 0 = _
    rw [Float.ofScientific, dif_pos fits]
    rfl
  have product : Float.ofModel (.pack (whole n below)) * Float.ofBits 0x3FF0000000000000 =
      .ofModel (.pack (UnpackedFloat.mul binary64 (Float.Model.pack (whole n below)).unpack
        (Float.ofBits 0x3FF0000000000000).toModel.unpack)) := rfl
  have unpacked : (Float.Model.pack (whole n below)).unpack = whole n below :=
    unpack_pack_whole n below
  rw [times, to_float_packed n below, product, unpacked, one_unpacked, times_one]

theorem of_nat_unpacked (n : Nat) (below : n < 2 ^ 53) :
    (Float.ofNat n).toModel.unpack = whole n below := by
  rw [of_nat_packed n below]
  exact unpack_pack_whole n below

end Packing

theorem zero_eq : (0.0 : Float) = Float.ofNat 0 := by decide +kernel

theorem one_eq : (1.0 : Float) = Float.ofNat 1 := by decide +kernel

section Comparison

theorem lt_of_log2_lt (m n : Nat) (nonzero : n ≠ 0) (fewer : m.log2 < n.log2) : m < n := by
  calc m < 2 ^ (m.log2 + 1) := Nat.lt_log2_self
    _ ≤ 2 ^ n.log2 := Nat.pow_le_pow_right (by decide) fewer
    _ ≤ n := Nat.log2_self_le nonzero

-- Numbers are ordered by the place of the leading digit first, and then by the digits.
theorem digits_compare (m n : Nat) (first : m ≠ 0) (second : n ≠ 0) :
    (compare ((m.log2 : Int) - 52) (n.log2 - 52)).then
      (compare (m * 2 ^ (52 - m.log2)) (n * 2 ^ (52 - n.log2))) = compare m n := by
  rcases Nat.lt_trichotomy m.log2 n.log2 with less | same | more
  · have places : compare ((m.log2 : Int) - 52) (n.log2 - 52) = .lt :=
      Int.compare_eq_lt.mpr (by omega)
    rw [places, Nat.compare_eq_lt.mpr (lt_of_log2_lt m n second less)]
    rfl
  · have positive := Nat.two_pow_pos (52 - n.log2)
    rw [same, Int.compare_eq_eq.mpr rfl, Ordering.eq_then]
    rcases Nat.lt_trichotomy m n with less | equal | more
    · rw [Nat.compare_eq_lt.mpr less, Nat.compare_eq_lt]
      exact Nat.mul_lt_mul_of_pos_right less positive
    · rw [equal]
      simp
    · rw [Nat.compare_eq_gt.mpr more, Nat.compare_eq_gt]
      exact Nat.mul_lt_mul_of_pos_right more positive
  · have places : compare ((m.log2 : Int) - 52) (n.log2 - 52) = .gt :=
      Int.compare_eq_gt.mpr (by omega)
    rw [places, Nat.compare_eq_gt.mpr (lt_of_log2_lt n m first more)]
    rfl

theorem whole_compare (m n : Nat) (first : m < 2 ^ 53) (second : n < 2 ^ 53) :
    (whole m first).compare (whole n second) = some (compare m n) := by
  by_cases zero : m = 0
  · subst zero
    by_cases also : n = 0
    · subst also
      rfl
    · rw [Nat.compare_eq_lt.mpr (Nat.pos_of_ne_zero also)]
      simp [whole, also, UnpackedFloat.compare]
  · by_cases also : n = 0
    · subst also
      rw [Nat.compare_eq_gt.mpr (Nat.pos_of_ne_zero zero)]
      simp [whole, zero, UnpackedFloat.compare]
    · simp only [whole, dif_neg zero, dif_neg also, UnpackedFloat.compare,
        digits_compare m n zero also]

theorem of_nat_compare (m n : Nat) (first : m < 2 ^ 53) (second : n < 2 ^ 53) :
    (Float.ofNat m).toModel.compare (Float.ofNat n).toModel = some (compare m n) := by
  rw [Float.Model.compare, of_nat_unpacked m first, of_nat_unpacked n second, whole_compare]

theorem of_nat_lt (m n : Nat) (first : m < 2 ^ 53) (second : n < 2 ^ 53) :
    Float.ofNat m < Float.ofNat n ↔ m < n := by
  rw [float_lt_iff, of_nat_compare m n first second, Option.some.injEq, Nat.compare_eq_lt]

theorem of_nat_injective (m n : Nat) (first : m < 2 ^ 53) (second : n < 2 ^ 53)
    (same : Float.ofNat m = Float.ofNat n) : m = n := by
  have equal := of_nat_compare m n first second
  rw [same, of_nat_compare n n second second, Option.some.injEq, Nat.compare_eq_eq.mpr rfl] at equal
  exact Nat.compare_eq_eq.mp equal.symm

end Comparison

section Conversion

theorem whole_to_int (n : Nat) (below : n < 2 ^ 53) (low high : Int) :
    (whole n below).toInt low high = n := by
  by_cases zero : n = 0
  · subst zero
    rfl
  have places : n.log2 < 53 := (Nat.log2_lt zero).mpr below
  have none : ((n.log2 : Int) - 52).toNat = 0 := by omega
  have shift : ((0 : Int) - (n.log2 - 52)).toNat = 52 - n.log2 := by omega
  simp only [whole, dif_neg zero, UnpackedFloat.toInt, roundToInt, decreaseExponent,
    shiftToExponent, Int.sub_zero, none, Nat.shiftLeft_zero, Int.natCast_zero, shift, drop_moved]
  rfl

theorem of_nat_to_uint64 (n : Nat) (below : n < 2 ^ 53) :
    (Float.ofNat n).toUInt64 = n.toUInt64 := by
  have room : n < UInt64.size := Nat.lt_trans below (by decide)
  have opened : (Float.ofNat n).toUInt64 = UInt64.ofNatClamp
      ((Float.ofNat n).toModel.unpack.toInt 0 (UInt64.size - 1)).toNat := rfl
  rw [opened, of_nat_unpacked n below, whole_to_int, Int.toNat_natCast,
    UInt64.ofNatClamp_eq_ofNat n room, Nat.toUInt64]

theorem of_nat_to_uint32 (n : Nat) (below : n < 2 ^ 32) :
    (Float.ofNat n).toUInt32.toNat = n := by
  have room : n < 2 ^ 53 := by omega
  have opened : (Float.ofNat n).toUInt32 = UInt32.ofNatClamp
      ((Float.ofNat n).toModel.unpack.toInt 0 (UInt32.size - 1)).toNat := rfl
  rw [opened, of_nat_unpacked n room, whole_to_int, Int.toNat_natCast,
    UInt32.ofNatClamp_eq_ofNat n below, UInt32.toNat_ofNat_of_lt' below]

theorem of_nat_abs (n : Nat) (below : n < 2 ^ 53) : (Float.ofNat n).abs = Float.ofNat n := by
  have opened : (Float.ofNat n).abs =
      .ofModel (.pack (Float.ofNat n).toModel.unpack.abs) := rfl
  have positive : (whole n below).abs = whole n below := by
    by_cases zero : n = 0
    · subst zero
      rfl
    · simp only [whole, dif_neg zero, UnpackedFloat.abs]
  rw [opened, of_nat_unpacked n below, positive, of_nat_packed n below]

end Conversion

end Spreadsheet.Decimal
