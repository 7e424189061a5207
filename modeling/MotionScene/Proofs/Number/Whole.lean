import Mathlib
import MotionScene.Proofs.Number.Exact

/-!
# Whole numbers as doubles

A whole number of at most fifty-three bits is a double, and so is the difference
of two of them if it has no more bits.  Subtracting such doubles is subtracting
the whole numbers.

The lemmas on the fields of a packed double are in a file that only the whole
library imports.
-/

namespace MotionScene
namespace Number

open Float.Model Float.Model.UnpackedFloat

variable {sign : Sign} {mantissa : Nat} {exponent : Int}

/-! ## Packing -/

theorem toNat_packComponents
    (sign : Sign)
    (exponent : BitVec 11)
    (mantissa : BitVec 52) :
    (packComponents Format.binary64 sign exponent mantissa).toNat =
      sign.toBitVec.toNat * 2 ^ 63 + exponent.toNat * 2 ^ 52 +
        mantissa.toNat := by
  have low : mantissa.toNat < 2 ^ 52 := mantissa.isLt
  have middle : exponent.toNat < 2 ^ 11 := exponent.isLt
  simp only [packComponents, BitVec.toNat_append]
  rw [← Nat.shiftLeft_add_eq_or_of_lt
    middle, ← Nat.shiftLeft_add_eq_or_of_lt low,
    Nat.shiftLeft_eq, Nat.shiftLeft_eq]
  omega

/-- The bits of a number whose mantissa has its leading bit in place. -/
theorem pack_of_leading
    (positive : 0 < mantissa)
    (leading : mantissa.log2 = 52)
    (highest : exponent ≤ 971) :
    UnpackedFloat.pack Format.binary64
        (.finite sign mantissa exponent positive) =
      packComponents Format.binary64 sign
        (BitVec.ofNat 11 (exponent + 1075).toNat)
        (BitVec.ofNat 52 mantissa) := by
  have biased : exponent + (Format.binary64.exponentBias : Int) +
      (Format.binary64.mantissaBitsWithoutImplicit : Int) =
        exponent + 1075 := by
    change exponent + ((1023 : Nat) : Int) + ((52 : Nat) : Int) = _
    omega
  rw [UnpackedFloat.pack]
  simp only [biased]
  rw [if_neg (by omega), if_pos (by rw [leading]; rfl)]

/-- Such a number can be read back from its bits. -/
theorem unpack_pack
    (positive : 0 < mantissa)
    (leading : mantissa.log2 = 52)
    (lowest : -1074 ≤ exponent)
    (highest : exponent ≤ 971) :
    UnpackedFloat.unpack Format.binary64
        (UnpackedFloat.pack Format.binary64
          (.finite sign mantissa exponent positive)) =
      .finite sign mantissa exponent positive := by
  obtain ⟨low, high⟩ := (Nat.log2_eq_iff positive.ne').1 leading
  have field : (BitVec.ofNat 11 (exponent + 1075).toNat).toNat =
      (exponent + 1075).toNat := by
    rw [BitVec.toNat_ofNat]
    omega
  have whole : (1#1 ++ BitVec.ofNat 52 mantissa).toNat = mantissa := by
    rw [BitVec.toNat_append, BitVec.toNat_ofNat, BitVec.toNat_ofNat,
      ← Nat.shiftLeft_add_eq_or_of_lt (Nat.mod_lt _ (Nat.two_pow_pos _)),
      Nat.shiftLeft_eq]
    omega
  have notOnes : BitVec.ofNat 11 (exponent + 1075).toNat ≠ -1#11 := by
    intro ones
    have equal : (exponent + 1075).toNat = 2047 :=
      field.symm.trans (congrArg BitVec.toNat ones)
    omega
  have notZero : BitVec.ofNat 11 (exponent + 1075).toNat ≠ 0#11 := by
    intro zero
    have equal : (exponent + 1075).toNat = 0 :=
      field.symm.trans (congrArg BitVec.toNat zero)
    omega
  rw [pack_of_leading positive leading highest, UnpackedFloat.unpack]
  simp only [unpackMantissa_packComponents, unpackExponent_packComponents,
    unpackSign_packComponents, Sign.ofBitVec_toBitVec]
  rw [if_neg notOnes, if_neg notZero]
  simp only [field, whole, UnpackedFloat.finite.injEq, true_and]
  change ((exponent + 1075).toNat : Int) -
    (((1023 : Nat) : Int) + ((52 : Nat) : Int)) = exponent
  omega

/-! ## Rounding -/

/-- The mantissa of fifty-three bits, with its leading bit set, that stands for
a whole number. -/
def widened (n : Nat) : Nat :=
  n * 2 ^ (52 - n.log2)

section Widened

variable {n : Nat}

theorem log2_le_of_lt (small : n < 2 ^ 53) : n.log2 ≤ 52 := by
  rcases Nat.eq_zero_or_pos n with rfl | positive
  · simp
  · exact Nat.le_of_lt_succ ((Nat.log2_lt positive.ne').2 small)

theorem log2_mul_two_pow (positive : 0 < n) (count : Nat) :
    (n * 2 ^ count).log2 = n.log2 + count := by
  have nonzero : n * 2 ^ count ≠ 0 :=
    Nat.mul_ne_zero positive.ne' (Nat.two_pow_pos _).ne'
  rw [Nat.log2_eq_iff nonzero, Nat.pow_add, Nat.add_right_comm, Nat.pow_add]
  exact ⟨Nat.mul_le_mul_right _ (Nat.log2_self_le positive.ne'),
    Nat.mul_lt_mul_of_pos_right Nat.lt_log2_self (Nat.two_pow_pos _)⟩

theorem widened_pos (positive : 0 < n) : 0 < widened n :=
  Nat.mul_pos positive (Nat.two_pow_pos _)

theorem log2_widened (positive : 0 < n) (small : n < 2 ^ 53) :
    (widened n).log2 = 52 := by
  rw [widened, log2_mul_two_pow positive,
    Nat.add_sub_cancel' (log2_le_of_lt small)]

end Widened

/-- No bit is lost when zeros are shifted out. -/
theorem shiftRight_mul_two_pow (count mantissa : Nat) :
    (⟨mantissa * 2 ^ count, false, false⟩ : ExtendedMantissa) >>> count =
      ⟨mantissa, false, false⟩ := by
  induction count generalizing mantissa with
  | zero => simp [HShiftRight.hShiftRight, Nat.repeat]
  | succ count inductionHypothesis =>
      change ExtendedMantissa.shiftRightOne
        ((⟨mantissa * 2 ^ (count + 1), false, false⟩ : ExtendedMantissa) >>>
          count) = _
      rw [Nat.pow_succ', ← Nat.mul_assoc, inductionHypothesis,
        ExtendedMantissa.shiftRightOne]
      simp

theorem targetExponent_eq (total : Int) :
    Format.binary64.targetExponent total = max (total - 53) (-1074) := rfl

/-- A mantissa that has its leading bit in place is shifted no further. -/
theorem shiftToTargetExponent_of_leading
    (leading : mantissa.log2 = 52)
    (lowest : -1074 ≤ exponent) :
    shiftToTargetExponent Format.binary64 mantissa exponent .exact =
      (⟨mantissa, false, false⟩, exponent) := by
  have still :
      (Format.binary64.targetExponent (totalExponent mantissa exponent) -
        exponent).toNat =
      0 := by
    rw [targetExponent_eq, totalExponent, leading]
    omega
  rw [shiftToTargetExponent, shiftToExponent, still]
  simp [HShiftRight.hShiftRight, Nat.repeat,
    ExtendedMantissa.ofMantissaAndAccuracy]

section Round

variable {n : Nat}

theorem targetExponent_whole (positive : 0 < n) (count : Nat) :
    Format.binary64.targetExponent (totalExponent (n * 2 ^ count) (-count)) =
      n.log2 - 52 := by
  rw [targetExponent_eq, totalExponent, log2_mul_two_pow positive]
  omega

/-- However many zeros a whole number is given with, its mantissa is brought to
fifty-three bits. -/
theorem shiftToTargetExponent_whole
    (positive : 0 < n)
    (small : n < 2 ^ 53)
    (count : Nat) :
    shiftToTargetExponent Format.binary64
        (decreaseExponent (n * 2 ^ count) (-count) (n.log2 - 52)).1
        (decreaseExponent (n * 2 ^ count) (-count) (n.log2 - 52)).2 .exact =
      ((⟨widened n, false, false⟩ : ExtendedMantissa),
        (n.log2 - 52 : Int)) := by
  have few := log2_le_of_lt small
  rcases Nat.le_total (count + n.log2) 52 with short | long
  · have left :
        ((-count : Int) - (n.log2 - 52)).toNat = 52 - n.log2 - count := by omega
    have whole : (n * 2 ^ count) <<< (52 - n.log2 - count) = widened n := by
      rw [Nat.shiftLeft_eq, Nat.mul_assoc, ← Nat.pow_add, widened]
      congr 2
      omega
    have reached :
        (-count : Int) - (52 - n.log2 - count : Nat) = n.log2 - 52 := by omega
    rw [decreaseExponent, left]
    simp only [whole, reached]
    exact shiftToTargetExponent_of_leading
      (log2_widened positive small) (by omega)
  · have left : ((-count : Int) - (n.log2 - 52)).toNat = 0 := by omega
    have right :
        ((n.log2 - 52 : Int) - (-count)).toNat = count + n.log2 - 52 := by omega
    have whole : n * 2 ^ count = widened n * 2 ^ (count + n.log2 - 52) := by
      rw [widened, Nat.mul_assoc, ← Nat.pow_add]
      congr 2
      omega
    rw [decreaseExponent, left]
    simp only [Nat.shiftLeft_zero, Nat.cast_zero, sub_zero]
    rw [shiftToTargetExponent, targetExponent_whole positive,
      shiftToExponent, right]
    simp only [ExtendedMantissa.ofMantissaAndAccuracy]
    rw [whole, shiftRight_mul_two_pow]
    congr 1
    omega

/-- Rounding does nothing to a number that fifty-three bits can hold. -/
theorem round_whole
    (positive : 0 < n)
    (small : n < 2 ^ 53)
    (count : Nat) :
    UnpackedFloat.round Format.binary64 sign (n * 2 ^ count) (-count) =
      .finite sign (widened n) (n.log2 - 52) (widened_pos positive) := by
  have rounded :
      (⟨widened n, false, false⟩ : ExtendedMantissa).roundedMantissa =
        widened n := rfl
  have settled := @shiftToTargetExponent_of_leading _ (n.log2 - 52)
    (log2_widened positive small) (by omega)
  rw [UnpackedFloat.round]
  simp only [targetExponent_whole positive]
  rw [roundWithAccuracy]
  simp only [shiftToTargetExponent_whole positive small, rounded, settled]
  rw [dif_neg (widened_pos positive).ne']

end Round

/-! ## Whole numbers -/

/-- A whole number the way the arithmetic of doubles sees it. -/
def unpackedInt (n : Int) : UnpackedFloat :=
  if zero : n = 0 then .zero .positive
  else
    .finite (if n < 0 then .negative else .positive) (widened n.natAbs)
      (n.natAbs.log2 - 52) (widened_pos (Int.natAbs_pos.2 zero))

section Whole

variable {m n : Int}

theorem unpack_pack_unpackedInt (small : n.natAbs < 2 ^ 53) :
    UnpackedFloat.unpack Format.binary64
        (UnpackedFloat.pack Format.binary64 (unpackedInt n)) =
      unpackedInt n := by
  rw [unpackedInt]
  split
  · rfl
  · next nonzero =>
    have few := log2_le_of_lt small
    exact unpack_pack _ (log2_widened (Int.natAbs_pos.2 nonzero) small)
      (by omega) (by omega)

theorem normalize_whole (small : n.natAbs < 2 ^ 53) (count : Nat) :
    UnpackedFloat.normalize Format.binary64 (n * 2 ^ count) (-count) .positive =
      unpackedInt n := by
  have power : (0 : Int) < 2 ^ count := Int.pow_pos (by decide)
  rw [UnpackedFloat.normalize, unpackedInt]
  rcases lt_trichotomy n 0 with below | rfl | above
  · have negative : compare (n * 2 ^ count) 0 = .lt :=
      Int.compare_eq_lt.2 (Int.mul_neg_of_neg_of_pos below power)
    have size : (-(n * 2 ^ count)).toNat = n.natAbs * 2 ^ count := by
      zify
      rw [Int.toNat_of_nonneg (by nlinarith), abs_of_neg below, neg_mul]
    rw [negative, dif_neg below.ne, if_pos below]
    simp only [size]
    exact round_whole (Int.natAbs_pos.2 below.ne) small count
  · rw [Int.zero_mul, dif_pos rfl]
    rfl
  · have positive : compare (n * 2 ^ count) 0 = .gt :=
      Int.compare_eq_gt.2 (Int.mul_pos above power)
    have size : (n * 2 ^ count).toNat = n.natAbs * 2 ^ count := by
      zify
      rw [Int.toNat_of_nonneg (Int.mul_pos above power).le, abs_of_pos above]
    rw [positive, dif_neg above.ne', if_neg (not_lt.2 above.le)]
    simp only [size]
    exact round_whole (Int.natAbs_pos.2 above.ne') small count

theorem apply_sign (n : Int) (factor : Nat) :
    (if n < 0 then Sign.negative else Sign.positive).apply
        ((n.natAbs * factor : Nat) : Int) =
      n * factor := by
  split
  · next below =>
    rw [Sign.apply]
    push_cast
    rw [abs_of_neg below, neg_mul, neg_neg]
  · next above =>
    rw [Sign.apply]
    push_cast
    rw [abs_of_nonneg (not_lt.1 above)]

/-- The mantissa of a whole number at a lower exponent. -/
theorem decreaseExponent_widened
    {n : Nat}
    (small : n < 2 ^ 53)
    {count : Nat}
    (enough : 52 - n.log2 ≤ count) :
    (decreaseExponent (widened n) (n.log2 - 52) (-count)).1 =
      n * 2 ^ count := by
  have few := log2_le_of_lt small
  rw [decreaseExponent, widened]
  simp only
  rw [Nat.shiftLeft_eq, Nat.mul_assoc, ← Nat.pow_add]
  congr 2
  omega

theorem sub_unpackedInt
    (smallM : m.natAbs < 2 ^ 53)
    (smallN : n.natAbs < 2 ^ 53)
    (small : (m - n).natAbs < 2 ^ 53) :
    UnpackedFloat.sub Format.binary64 (unpackedInt m) (unpackedInt n) =
      unpackedInt (m - n) := by
  by_cases zeroM : m = 0 <;> by_cases zeroN : n = 0
  · rw [zeroM, zeroN]
    rfl
  · rw [zeroM, zero_sub]
    simp only [unpackedInt, dif_pos, dif_neg zeroN,
      dif_neg (neg_ne_zero.2 zeroN), UnpackedFloat.sub, Int.natAbs_neg,
      UnpackedFloat.finite.injEq, and_true]
    rcases lt_or_gt_of_ne zeroN with below | above
    · rw [if_pos below, if_neg (by omega)]
      rfl
    · rw [if_neg (by omega), if_pos (by omega)]
      rfl
  · rw [zeroN, sub_zero]
    simp only [unpackedInt, dif_pos, dif_neg zeroM, UnpackedFloat.sub]
  · -- Both are brought to the lower exponent, where each mantissa is the number
    -- times one power.
    have fewM := log2_le_of_lt smallM
    have fewN := log2_le_of_lt smallN
    obtain ⟨count, isCount⟩ :
        ∃ count, count =
          max (52 - m.natAbs.log2) (52 - n.natAbs.log2) := ⟨_, rfl⟩
    have lower : min ((m.natAbs.log2 : Int) - 52) ((n.natAbs.log2 : Int) - 52) =
        -count := by omega
    rw [unpackedInt, unpackedInt, dif_neg zeroM, dif_neg zeroN,
      UnpackedFloat.sub]
    simp only [lower]
    rw [decreaseExponent_widened smallM (by omega),
      decreaseExponent_widened smallN (by omega), apply_sign,
      apply_sign, ← Int.sub_mul, Nat.cast_pow, Nat.cast_ofNat,
      normalize_whole small]

/-- The bits that a positive whole number is given are those of its mantissa and
exponent. -/
theorem toBitVec_whole
    {n : Nat}
    (positive : 0 < n)
    (small : n < 2 ^ 53) :
    (((n.log2 : Int) - 52 + 1075).toNat * twoTo 52 +
      (widened n - twoTo 52)).toUInt64.toBitVec =
      UnpackedFloat.pack Format.binary64 (unpackedInt n) := by
  have few := log2_le_of_lt small
  have leading := log2_widened positive small
  obtain ⟨low, high⟩ := (Nat.log2_eq_iff (widened_pos positive).ne').1 leading
  have unsigned : Sign.positive.toBitVec.toNat = 0 := rfl
  rw [unpackedInt, dif_neg (by omega), if_neg (by omega)]
  simp only [Int.natAbs_natCast]
  rw [pack_of_leading _ leading (by omega)]
  apply BitVec.eq_of_toNat_eq
  rw [toNat_packComponents, BitVec.toNat_ofNat, BitVec.toNat_ofNat,
    twoTo_eq, unsigned, UInt64.toNat_toBitVec, Nat.toUInt64_eq,
    UInt64.toNat_ofNat']
  omega

theorem nearest_whole {n : Nat} (small : n < 2 ^ 53) :
    nearest n 0 = Float.ofModel (Float.Model.pack (unpackedInt n)) := by
  rcases Nat.eq_zero_or_pos n with rfl | positive
  · rw [nearest, if_pos rfl]
    rfl
  · have few := log2_le_of_lt small
    obtain ⟨low, high⟩ :=
      (Nat.log2_eq_iff (widened_pos positive).ne').1
        (log2_widened positive small)
    have lowest :
        max ((0 : Int) + n.log2 - 52) (-1074) = n.log2 - 52 := by omega
    have inside : (n.log2 : Int) - 52 ≤ 0 := by omega
    have kept : n * twoTo ((0 : Int) - (n.log2 - 52)).toNat = widened n := by
      rw [twoTo_eq, widened]
      congr 2
      omega
    have notCarried : widened n ≠ twoTo 53 := by
      rw [twoTo_eq]
      omega
    rw [nearest, if_neg positive.ne']
    simp only [lowest, if_pos inside, kept, notCarried, decide_false,
      Bool.false_eq_true, if_false]
    rw [if_neg (by omega), if_neg (by rw [twoTo_eq]; omega)]
    change Float.ofModel (Float.Model.pack (UnpackedFloat.unpack Format.binary64
      (UInt64.toBitVec _))) = _
    rw [toBitVec_whole positive small,
      unpack_pack_unpackedInt (by rwa [Int.natAbs_natCast])]

theorem ofInt_eq (small : n.natAbs < 2 ^ 53) :
    ofInt n = Float.ofModel (Float.Model.pack (unpackedInt n)) := by
  rw [ofInt]
  split
  · next below =>
    rw [nearest_whole small]
    change Float.ofModel (Float.Model.pack (UnpackedFloat.unpack Format.binary64
      (UnpackedFloat.pack Format.binary64 (unpackedInt n.natAbs))).neg) = _
    rw [unpack_pack_unpackedInt (by rwa [Int.natAbs_natCast]),
      unpackedInt, unpackedInt, dif_neg (by omega), dif_neg below.ne,
      if_neg (by omega), if_pos below]
    simp only [Int.natAbs_natCast]
    rfl
  · next above =>
      rw [nearest_whole small, Int.natAbs_of_nonneg (not_lt.1 above)]

theorem unpack_ofInt (small : n.natAbs < 2 ^ 53) :
    (ofInt n).toModel.unpack = unpackedInt n := by
  rw [ofInt_eq small]
  exact unpack_pack_unpackedInt small

/-- The difference of whole numbers as doubles is the double of the
difference. -/
theorem ofInt_sub_ofInt
    (smallM : m.natAbs < 2 ^ 53)
    (smallN : n.natAbs < 2 ^ 53)
    (small : (m - n).natAbs < 2 ^ 53) :
    ofInt m - ofInt n = ofInt (m - n) := by
  change Float.ofModel (Float.Model.pack (UnpackedFloat.sub Format.binary64
    (ofInt m).toModel.unpack (ofInt n).toModel.unpack)) = _
  rw [unpack_ofInt smallM, unpack_ofInt smallN,
    sub_unpackedInt smallM smallN small, ofInt_eq small]

end Whole

end Number
end MotionScene
