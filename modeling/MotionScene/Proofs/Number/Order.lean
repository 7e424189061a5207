import Mathlib.Data.Rat.Floor
import MotionScene.Proofs.Number.Opposite
import MotionScene.Proofs.Number.Shortest

/-!
# The order of doubles

Comparing two finite doubles is comparing the rational numbers they stand for.
A whole number that a double is rounded to has few leading digits, so turning it
into a double again loses nothing.
-/

namespace MotionScene
namespace Number

open Float.Model Float.Model.UnpackedFloat

/-! ## The fields of a double -/

section Fields

variable (bits : BitVec 64)

theorem toNat_unpackExponent :
    (@unpackExponent Format.binary64 bits).toNat =
      bits.toNat / 2 ^ 52 % 2048 := by
  simp [unpackExponent, Nat.shiftRight_eq_div_pow]

theorem toNat_unpackMantissa :
    (@unpackMantissa Format.binary64 bits).toNat = bits.toNat % 2 ^ 52 := by
  simp [unpackMantissa]

theorem toNat_unpackSign :
    (@unpackSign Format.binary64 bits).toNat = bits.toNat / 2 ^ 63 := by
  have bound : bits.toNat < 2 ^ 64 := bits.isLt
  simp only [unpackSign, BitVec.toNat_cast, BitVec.extractLsb_toNat,
    Nat.shiftRight_eq_div_pow]
  change bits.toNat / 2 ^ 63 % 2 = _
  omega

theorem ofBitVec_unpackSign :
    Sign.ofBitVec (@unpackSign Format.binary64 bits) =
      if 2 ^ 63 ≤ bits.toNat then .negative else .positive := by
  have unset : @unpackSign Format.binary64 bits = 0#1 ↔
      ¬ 2 ^ 63 ≤ bits.toNat := by
    rw [← BitVec.toNat_inj, toNat_unpackSign, BitVec.toNat_ofNat]
    omega
  rw [Sign.ofBitVec, if_congr unset rfl rfl, ite_not]

end Fields

theorem lt_iff_compare {first second : Float} :
    first < second ↔
      first.toModel.unpack.compare second.toModel.unpack = some .lt := by
  change decide (first.toModel < second.toModel) = true ↔ _
  rw [decide_eq_true_iff]
  change
    (first.toModel.unpack.compare second.toModel.unpack == some .lt) = true ↔ _
  rw [beq_iff_eq]

namespace Exact

variable {x y : Exact} {float : Float}

/-! ## Values -/

/-- The number an exact value is. -/
def value (x : Exact) : ℚ :=
  if x.negative then -x.magnitude else x.magnitude

/-- The sign the way the arithmetic of doubles sees it. -/
def sign (x : Exact) : Sign :=
  if x.negative then .negative else .positive

/-- An exact value the way the arithmetic of doubles sees it. -/
def unpacked (x : Exact) : UnpackedFloat :=
  if zero : x.mantissa = 0 then .zero x.sign
  else .finite x.sign x.mantissa x.exponent (Nat.pos_of_ne_zero zero)

theorem magnitude_nonneg (x : Exact) : 0 ≤ x.magnitude :=
  mul_nonneg (Nat.cast_nonneg _) x.unit_pos.le

theorem magnitude_pos (positive : 0 < x.mantissa) : 0 < x.magnitude :=
  mul_pos (Nat.cast_pos.2 positive) x.unit_pos

theorem Precedes.magnitude_lt
    (precedes : x.Precedes y)
    (normal : x.Normal)
    (later : y.Normal) :
    x.magnitude < y.magnitude := by
  have apart := (precedes.upperEnd_le_lowerEnd normal later).1
  have unit := x.unit_pos
  have gap := y.gap_pos
  rw [upperEnd, lowerEnd] at apart
  linarith

/-- Magnitudes are ordered by exponents first and by mantissas then. -/
theorem compare_magnitude (normal : x.Normal) (other : y.Normal) :
    (compare x.exponent y.exponent).then (compare x.mantissa y.mantissa) =
      compare x.magnitude y.magnitude := by
  rcases lt_trichotomy x.exponent y.exponent with less | same | greater
  · have precedes : x.Precedes y := Or.inl less
    rw [compare_lt_iff_lt.2 less,
      compare_lt_iff_lt.2 (precedes.magnitude_lt normal other)]
    rfl
  · rw [same, compare_eq_iff_eq.2 rfl]
    rcases lt_trichotomy x.mantissa y.mantissa with
      less | sameMantissa | greater
    · have precedes : x.Precedes y := Or.inr ⟨same, less⟩
      rw [compare_lt_iff_lt.2 less,
        compare_lt_iff_lt.2 (precedes.magnitude_lt normal other)]
      rfl
    · rw [magnitude, magnitude, same, sameMantissa, compare_eq_iff_eq.2 rfl,
        compare_eq_iff_eq.2 rfl]
      rfl
    · have precedes : y.Precedes x := Or.inr ⟨same.symm, greater⟩
      rw [compare_gt_iff_gt.2 greater,
        compare_gt_iff_gt.2 (precedes.magnitude_lt other normal)]
      rfl
  · have precedes : y.Precedes x := Or.inl greater
    rw [compare_gt_iff_gt.2 greater,
      compare_gt_iff_gt.2 (precedes.magnitude_lt other normal)]
    rfl

theorem compare_neg_neg (a b : ℚ) : compare (-a) (-b) = (compare a b).swap := by
  rcases lt_trichotomy a b with less | rfl | greater
  · rw [compare_lt_iff_lt.2 less, compare_gt_iff_gt.2 (neg_lt_neg less)]
    rfl
  · rw [compare_eq_iff_eq.2 rfl, compare_eq_iff_eq.2 rfl]
    rfl
  · rw [compare_gt_iff_gt.2 greater, compare_lt_iff_lt.2 (neg_lt_neg greater)]
    rfl

theorem value_of_zero (zero : x.mantissa = 0) : x.value = 0 := by
  simp [value, magnitude, zero]

theorem unpacked_of_zero (zero : x.mantissa = 0) : x.unpacked = .zero x.sign :=
  dif_pos zero

theorem unpacked_of_pos (positive : 0 < x.mantissa) :
    x.unpacked = .finite x.sign x.mantissa x.exponent positive :=
  dif_neg positive.ne'

/-- A number that is not zero has a sign and is on that side of zero. -/
theorem sign_cases (positive : 0 < x.mantissa) :
    (x.sign = .negative ∧ x.value = -x.magnitude ∧ x.value < 0) ∨
      (x.sign = .positive ∧ x.value = x.magnitude ∧ 0 < x.value) := by
  have above := magnitude_pos positive
  rw [sign, value]
  cases x.negative
  · exact Or.inr ⟨rfl, rfl, above⟩
  · exact Or.inl ⟨rfl, rfl, neg_neg_of_pos above⟩

/-- Doubles are compared as the numbers they are. -/
theorem compare_unpacked (normal : x.Normal) (other : y.Normal) :
    x.unpacked.compare y.unpacked = some (compare x.value y.value) := by
  rcases Nat.eq_zero_or_pos x.mantissa with zero | positive <;>
    rcases Nat.eq_zero_or_pos y.mantissa with otherZero | otherPositive
  · rw [unpacked_of_zero zero, unpacked_of_zero otherZero, value_of_zero zero,
      value_of_zero otherZero, compare_eq_iff_eq.2 rfl]
    rfl
  · rw [unpacked_of_zero zero, unpacked_of_pos otherPositive,
      value_of_zero zero]
    rcases sign_cases otherPositive with ⟨sign, _, below⟩ | ⟨sign, _, above⟩
    · rw [sign, compare_gt_iff_gt.2 below]
      rfl
    · rw [sign, compare_lt_iff_lt.2 above]
      rfl
  · rw [unpacked_of_pos positive, unpacked_of_zero otherZero,
      value_of_zero otherZero]
    rcases sign_cases positive with ⟨sign, _, below⟩ | ⟨sign, _, above⟩
    · rw [sign, compare_lt_iff_lt.2 below]
      rfl
    · rw [sign, compare_gt_iff_gt.2 above]
      rfl
  · have magnitudes := compare_magnitude normal other
    rw [unpacked_of_pos positive, unpacked_of_pos otherPositive]
    rcases sign_cases positive with
      ⟨sign, isValue, below⟩ | ⟨sign, isValue, above⟩ <;>
      rcases sign_cases otherPositive with
        ⟨otherSign, isOtherValue, otherBelow⟩ |
          ⟨otherSign, isOtherValue, otherAbove⟩
    · rw [sign, otherSign, isValue, isOtherValue, compare_neg_neg, ← magnitudes]
      rfl
    · rw [sign, otherSign, compare_lt_iff_lt.2 (below.trans otherAbove)]
      rfl
    · rw [sign, otherSign, compare_gt_iff_gt.2 (otherBelow.trans above)]
      rfl
    · rw [sign, otherSign, isValue, isOtherValue, ← magnitudes]
      rfl

/-! ## Doubles that stand for a number -/

/-- A double has an exact value in normal form. -/
structure StandsFor (float : Float) (x : Exact) : Prop where
  unpack : float.toModel.unpack = x.unpacked
  normal : x.Normal

theorem StandsFor.lt_iff
    {first second : Float}
    (one : StandsFor first x)
    (two : StandsFor second y) :
    first < second ↔ x.value < y.value := by
  rw [lt_iff_compare, one.unpack, two.unpack,
    compare_unpacked one.normal two.normal, Option.some.injEq,
    compare_lt_iff_lt]

theorem StandsFor.neg (stands : StandsFor float x) :
    StandsFor (-float) { x with negative := !x.negative } := by
  refine ⟨?_, stands.normal.small, stands.normal.lowest, stands.normal.highest,
    stands.normal.leading⟩
  rw [unpack_neg, stands.unpack]
  unfold unpacked sign
  cases x.negative <;> split <;> rfl

theorem value_neg (x : Exact) :
    ({ x with negative := !x.negative } : Exact).value = -x.value := by
  unfold value
  cases x.negative
  · rfl
  · exact (neg_neg x.magnitude).symm

theorem unpack_of_lowest
    {bits : BitVec 64}
    (lowest : bits.toNat / 2 ^ 52 % 2048 = 0) :
    UnpackedFloat.unpack Format.binary64 bits =
      unpacked ⟨decide (2 ^ 63 ≤ bits.toNat), bits.toNat % 2 ^ 52, -1074⟩ := by
  have field := toNat_unpackExponent bits
  have fraction := toNat_unpackMantissa bits
  have isZero : @unpackExponent Format.binary64 bits = 0#11 :=
    BitVec.eq_of_toNat_eq (field.trans lowest)
  rw [UnpackedFloat.unpack]
  dsimp only
  rw [ofBitVec_unpackSign, isZero, if_neg (by decide), if_pos rfl]
  by_cases nothing : bits.toNat % 2 ^ 52 = 0
  · have empty : @unpackMantissa Format.binary64 bits = 0#52 :=
      BitVec.eq_of_toNat_eq (fraction.trans nothing)
    rw [dif_pos empty, unpacked_of_zero nothing, sign]
    simp only [decide_eq_true_eq]
  · have nonempty : @unpackMantissa Format.binary64 bits ≠ 0#52 := fun empty =>
      nothing (fraction.symm.trans (congrArg BitVec.toNat empty))
    rw [dif_neg nonempty, unpacked_of_pos (Nat.pos_of_ne_zero nothing), sign]
    simp only [decide_eq_true_eq, fraction]
    rfl

theorem unpack_of_above
    {bits : BitVec 64}
    (above : bits.toNat / 2 ^ 52 % 2048 ≠ 0)
    (special : bits.toNat / 2 ^ 52 % 2048 ≠ 2047) :
    UnpackedFloat.unpack Format.binary64 bits =
      unpacked ⟨decide (2 ^ 63 ≤ bits.toNat), bits.toNat % 2 ^ 52 + 2 ^ 52,
        (bits.toNat / 2 ^ 52 % 2048 : Nat) - 1075⟩ := by
  have field := toNat_unpackExponent bits
  have fraction := toNat_unpackMantissa bits
  have notOnes : @unpackExponent Format.binary64 bits ≠ -1#11 := fun ones =>
    special (field.symm.trans (congrArg BitVec.toNat ones))
  have notZero : @unpackExponent Format.binary64 bits ≠ 0#11 := fun zero =>
    above (field.symm.trans (congrArg BitVec.toNat zero))
  have whole : (1#1 ++ @unpackMantissa Format.binary64 bits).toNat =
      bits.toNat % 2 ^ 52 + 2 ^ 52 := by
    rw [BitVec.toNat_append, ← Nat.shiftLeft_add_eq_or_of_lt
      (BitVec.isLt _), fraction]
    exact Nat.add_comm _ _
  rw [UnpackedFloat.unpack]
  dsimp only
  rw [ofBitVec_unpackSign, if_neg notOnes, if_neg notZero,
    unpacked_of_pos (Nat.succ_pos _), sign]
  simp only [decide_eq_true_eq, whole, field]
  rfl

/-- What is read off the bits of a double is what its arithmetic works with. -/
theorem standsFor_of_ofFloat? (exact : ofFloat? float = some x) :
    StandsFor float x := by
  refine ⟨?_, normal_of_ofFloat? exact⟩
  rcases ofFloat?_cases exact with ⟨lowest, rfl⟩ | ⟨above, special, rfl⟩
  · exact unpack_of_lowest lowest
  · exact unpack_of_above above special

/-! ## Whole numbers -/

theorem divide_towardZero (numerator denominator : Nat) :
    (Rounding.divide .towardZero numerator denominator : Int) =
      ⌊(numerator / denominator : ℚ)⌋ :=
  (Rat.floor_natCast_div_natCast numerator denominator).symm

theorem divide_awayFromZero
    (numerator : Nat)
    {denominator : Nat}
    (positive : 0 < denominator) :
    (Rounding.divide .awayFromZero numerator denominator : Int) =
      ⌈(numerator / denominator : ℚ)⌉ := by
  have bottom : (0 : ℚ) < denominator := by exact_mod_cast positive
  have remainder : ((numerator % denominator : Nat) : ℚ) < denominator := by
    exact_mod_cast Nat.mod_lt numerator positive
  have parts : (denominator : ℚ) * (numerator / denominator : Nat) +
      (numerator % denominator : Nat) =
      numerator := by exact_mod_cast Nat.div_add_mod numerator denominator
  rw [eq_comm, Int.ceil_eq_iff, lt_div_iff₀ bottom, div_le_iff₀ bottom]
  simp only [Rounding.divide]
  split
  · next nothing =>
    rw [nothing, Nat.cast_zero] at parts
    rw [Int.cast_natCast]
    constructor <;> linarith
  · next something =>
    have above : (0 : ℚ) < (numerator % denominator : Nat) := by
      exact_mod_cast Nat.pos_of_ne_zero something
    rw [Int.cast_natCast, Nat.cast_succ]
    constructor <;> linarith

theorem floor_eq (x : Exact) : x.floor = ⌊x.value⌋ := by
  rw [floor, value, roundMagnitude, roundMagnitude, divide_towardZero,
    divide_awayFromZero _ x.denominator_pos, ← magnitude_eq_div]
  split
  · exact Int.floor_neg.symm
  · rfl

theorem ceil_eq (x : Exact) : x.ceil = ⌈x.value⌉ := by
  rw [ceil, value, roundMagnitude, roundMagnitude, divide_towardZero,
    divide_awayFromZero _ x.denominator_pos, ← magnitude_eq_div]
  split
  · exact Int.ceil_neg.symm
  · rfl

/-- A whole number that fifty-three binary digits and some zeros can hold. -/
def Short (n : Int) : Prop :=
  ∃ digits zeros, n.natAbs = digits * 2 ^ zeros ∧ digits < 2 ^ 53

theorem divide_le (rounding : Rounding) (numerator denominator : Nat) :
    rounding.divide numerator denominator ≤ numerator / denominator + 1 := by
  cases rounding <;> simp only [Rounding.divide] <;> repeat' split
  all_goals omega

theorem le_divide (rounding : Rounding) (numerator denominator : Nat) :
    numerator / denominator ≤ rounding.divide numerator denominator := by
  cases rounding <;> simp only [Rounding.divide] <;> repeat' split
  all_goals omega

theorem divide_mul_self
    (rounding : Rounding)
    (quotient : Nat)
    {denominator : Nat}
    (positive : 0 < denominator) :
    rounding.divide (quotient * denominator) denominator = quotient := by
  cases rounding <;>
    simp [Rounding.divide, Nat.mul_div_cancel _ positive, positive]

/-- A double with digits behind the point has few digits before it, and one
without is whole. -/
theorem short_roundMagnitude (normal : x.Normal) (rounding : Rounding) :
    Short (x.roundMagnitude rounding) := by
  have small := normal.small
  rw [roundMagnitude, numerator, denominator, twoTo_eq, twoTo_eq]
  rcases Int.lt_or_le x.exponent 0 with fractional | whole
  · have noZeros : x.exponent.toNat = 0 := by omega
    rw [noZeros, Nat.pow_zero, Nat.mul_one]
    refine ⟨_, 0, (Nat.mul_one _).symm, ?_⟩
    have bound := divide_le rounding x.mantissa (2 ^ (-x.exponent).toNat)
    have half : x.mantissa / 2 ^ (-x.exponent).toNat ≤ x.mantissa / 2 :=
      Nat.div_le_div_left (Nat.le_self_pow (by omega) 2) (by decide)
    rw [Int.natAbs_natCast]
    omega
  · have noPoint : (-x.exponent).toNat = 0 := by omega
    have unchanged :=
      divide_mul_self rounding (x.mantissa * 2 ^ x.exponent.toNat) Nat.one_pos
    rw [Nat.mul_one] at unchanged
    rw [noPoint, Nat.pow_zero, unchanged]
    exact ⟨x.mantissa, x.exponent.toNat, Int.natAbs_natCast _, small⟩

theorem Short.neg {n : Int} (short : Short n) : Short (-n) := by
  rwa [Short, Int.natAbs_neg]

theorem short_floor (normal : x.Normal) : Short x.floor := by
  rw [floor]
  split
  · exact (short_roundMagnitude normal _).neg
  · exact short_roundMagnitude normal _

theorem short_ceil (normal : x.Normal) : Short x.ceil := by
  rw [ceil]
  split
  · exact (short_roundMagnitude normal _).neg
  · exact short_roundMagnitude normal _

/-- The bits of a mantissa in place below a field are read back. -/
theorem standsFor_ofBits
    {mantissa : Nat}
    {exponent : Int}
    (leading : 2 ^ 52 ≤ mantissa)
    (small : mantissa < 2 ^ 53)
    (lowest : -1074 ≤ exponent)
    (highest : exponent ≤ 971) :
    StandsFor
      (Float.ofBits
        ((exponent + 1075).toNat * 2 ^ 52 + (mantissa - 2 ^ 52)).toUInt64)
      ⟨false, mantissa, exponent⟩ := by
  refine ⟨?_, small, lowest, highest, Or.inl leading⟩
  obtain ⟨bits, isBits⟩ : ∃ bits : BitVec 64,
      bits =
        ((exponent + 1075).toNat * 2 ^ 52 +
          (mantissa - 2 ^ 52)).toUInt64.toBitVec := ⟨_, rfl⟩
  have number :
      bits.toNat = (exponent + 1075).toNat * 2 ^ 52 + (mantissa - 2 ^ 52) := by
    rw [isBits, UInt64.toNat_toBitVec, Nat.toUInt64_eq, UInt64.toNat_ofNat']
    omega
  have quotient : bits.toNat / 2 ^ 52 = (exponent + 1075).toNat := by omega
  have field : bits.toNat / 2 ^ 52 % 2048 = (exponent + 1075).toNat := by omega
  have read :=
    unpack_of_above (by omega : bits.toNat / 2 ^ 52 % 2048 ≠ 0) (by omega)
  have exact : (⟨decide (2 ^ 63 ≤ bits.toNat), bits.toNat % 2 ^ 52 + 2 ^ 52,
      (bits.toNat / 2 ^ 52 % 2048 : Nat) - 1075⟩ : Exact) =
        ⟨false, mantissa, exponent⟩ := by
    rw [Exact.mk.injEq, decide_eq_false_iff_not]
    omega
  change UnpackedFloat.unpack Format.binary64
    (UnpackedFloat.pack Format.binary64
    (UnpackedFloat.unpack Format.binary64 (UInt64.toBitVec _))) = _
  have positive : 0 < mantissa := by omega
  rw [← isBits, read, exact, unpacked_of_pos positive]
  exact unpack_pack _ ((Nat.log2_eq_iff positive.ne').2 ⟨leading, small⟩)
    lowest highest

/-- The leading fifty-three bits of a whole number, rounded, which may carry
into one bit more. -/
def leadingBits (n : Nat) : Nat :=
  if n.log2 ≤ 52 then n * 2 ^ (52 - n.log2)
  else Rounding.divide .halfEven n (2 ^ (n.log2 - 52))

/-- The exact value of the double nearest to a whole number. -/
def nearestWhole (n : Nat) : Exact :=
  if leadingBits n = 2 ^ 53 then ⟨false, 2 ^ 52, n.log2 - 51⟩
  else ⟨false, leadingBits n, n.log2 - 52⟩

theorem leadingBits_bounds {n : Nat} (positive : 0 < n) :
    2 ^ 52 ≤ leadingBits n ∧ leadingBits n ≤ 2 ^ 53 := by
  obtain ⟨low, high⟩ := (Nat.log2_eq_iff positive.ne').1 rfl
  rw [leadingBits]
  split
  · next short =>
    have leading : (n * 2 ^ (52 - n.log2)).log2 = 52 := by
      rw [log2_mul_two_pow positive, Nat.add_sub_cancel' short]
    have bounds :=
      (Nat.log2_eq_iff (Nat.mul_pos positive (Nat.two_pow_pos _)).ne').1 leading
    exact ⟨bounds.1, bounds.2.le⟩
  · next long =>
    have count : n.log2 = 52 + (n.log2 - 52) := by omega
    have countNext : n.log2 + 1 = 53 + (n.log2 - 52) := by omega
    rw [count, Nat.pow_add] at low
    rw [countNext, Nat.pow_add] at high
    have least := (Nat.le_div_iff_mul_le (Nat.two_pow_pos (n.log2 - 52))).2 low
    have most := (Nat.div_lt_iff_lt_mul (Nat.two_pow_pos (n.log2 - 52))).2 high
    exact ⟨least.trans (le_divide _ _ _), (divide_le _ _ _).trans most⟩

/-- The double nearest to a whole number is made of its leading bits. -/
theorem standsFor_nearest {n : Nat} (positive : 0 < n) (few : n.log2 ≤ 900) :
    StandsFor (nearest n 0) (nearestWhole n) := by
  obtain ⟨low, high⟩ := leadingBits_bounds positive
  have lowest : max ((0 : Int) + n.log2 - 52) (-1074) = n.log2 - 52 := by omega
  have kept : (if (n.log2 - 52 : Int) ≤ 0 then
      n * twoTo ((0 : Int) - (n.log2 - 52)).toNat
      else
        Rounding.divide .halfEven n (twoTo ((n.log2 : Int) - 52 - 0).toNat)) =
          leadingBits n := by
    have up : ((0 : Int) - (n.log2 - 52)).toNat = 52 - n.log2 := by omega
    have down : ((n.log2 : Int) - 52 - 0).toNat = n.log2 - 52 := by omega
    rw [twoTo_eq, twoTo_eq, up, down, leadingBits]
    exact if_congr (by omega) rfl rfl
  rw [nearest, if_neg positive.ne', nearestWhole]
  simp only [lowest, kept]
  simp only [twoTo_eq, decide_eq_true_eq]
  by_cases carried : leadingBits n = 2 ^ 53
  · have next : (n.log2 : Int) - 52 + 1 = n.log2 - 51 := by omega
    rw [if_pos carried, if_pos carried, if_pos carried, next, if_neg (by omega),
      if_neg (lt_irrefl _)]
    exact standsFor_ofBits le_rfl (by decide) (by omega) (by omega)
  · rw [if_neg carried, if_neg carried, if_neg carried, if_neg (by omega),
      if_neg (by omega)]
    exact standsFor_ofBits low (by omega) (by omega) (by omega)

/-- No digit is lost when a whole number of few leading digits becomes a
double. -/
theorem value_nearestWhole
    {digits : Nat}
    (positive : 0 < digits)
    (small : digits < 2 ^ 53)
    (zeros : Nat) :
    (nearestWhole (digits * 2 ^ zeros)).value = digits * 2 ^ zeros := by
  have short := log2_le_of_lt small
  have length := log2_mul_two_pow positive zeros
  have leading : leadingBits (digits * 2 ^ zeros) = widened digits := by
    rw [leadingBits, length, widened]
    split
    · next within =>
      rw [mul_assoc, ← Nat.pow_add]
      congr 2
      omega
    · next beyond =>
      have whole : digits * 2 ^ zeros =
          digits * 2 ^ (52 - digits.log2) * 2 ^ (digits.log2 + zeros - 52) := by
        rw [mul_assoc, ← Nat.pow_add]
        congr 2
        omega
      rw [whole, divide_mul_self _ _ (Nat.two_pow_pos _)]
  have notCarried : widened digits ≠ 2 ^ 53 :=
    ((Nat.log2_eq_iff (widened_pos positive).ne').1
      (log2_widened positive small)).2.ne
  have exponents : ((52 - digits.log2 : Nat) : Int) +
      ((digits.log2 + zeros : Nat) - 52) = zeros := by
    omega
  rw [nearestWhole, leading, if_neg notCarried, value,
    if_neg Bool.false_ne_true, magnitude, length, widened, Nat.cast_mul,
    Nat.cast_pow, Nat.cast_ofNat,
    mul_assoc, ← zpow_natCast, ← zpow_add₀ two_ne_zero, exponents, zpow_natCast]

/-- A whole number of few leading digits is the value of its double. -/
theorem exists_standsFor_ofInt
    {n : Int}
    (short : Short n)
    (fits : n.natAbs ≤ 2 ^ 63) :
    ∃ x, StandsFor (ofInt n) x ∧ x.value = n := by
  obtain ⟨digits, zeros, spelled, small⟩ := short
  rcases Nat.eq_zero_or_pos digits with rfl | positive
  · rw [Nat.zero_mul, Int.natAbs_eq_zero] at spelled
    subst spelled
    refine ⟨⟨false, 0, -1074⟩,
      ⟨?_, by decide, by decide, by decide, Or.inr rfl⟩, ?_⟩
    · rw [unpacked_of_zero rfl]
      rfl
    · rw [value_of_zero rfl, Int.cast_zero]
  · have few : zeros ≤ 63 := by
      rw [← Nat.pow_le_pow_iff_right (by decide : 1 < 2)]
      calc 2 ^ zeros ≤ digits * 2 ^ zeros := Nat.le_mul_of_pos_left _ positive
        _ = n.natAbs := spelled.symm
        _ ≤ 2 ^ 63 := fits
    have length := log2_mul_two_pow positive zeros
    have short := log2_le_of_lt small
    have magnitude := standsFor_nearest
      (Nat.mul_pos positive (Nat.two_pow_pos zeros)) (by omega)
    have measured := value_nearestWhole positive small zeros
    have absolute : (n.natAbs : ℚ) = digits * 2 ^ zeros := by
      rw [spelled, Nat.cast_mul, Nat.cast_pow, Nat.cast_ofNat]
    rw [← absolute] at measured
    rw [ofInt, spelled]
    split
    · next below =>
      refine ⟨_, magnitude.neg, ?_⟩
      rw [value_neg, measured, ← Int.cast_natCast,
        Int.ofNat_natAbs_of_nonpos below.le, Int.cast_neg, neg_neg]
    · next above =>
      refine ⟨_, magnitude, ?_⟩
      rw [measured, ← Int.cast_natCast, Int.natAbs_of_nonneg (not_lt.1 above)]

/-- A whole number of few leading digits, moved into the range of signed 64-bit
integers, becomes a double within the powers of two at the ends of that
range. -/
theorem exists_standsFor_clampInt64 {n : Int} (short : Short n) :
    ∃ x, StandsFor (ofInt (clampInt64 n).toInt) x ∧
      x.value = (max (-2 ^ 63) (min n (2 ^ 63)) : Int) := by
  have least : Int64.minValue.toInt = -2 ^ 63 := rfl
  have greatest : Int64.maxValue.toInt = 2 ^ 63 - 1 := rfl
  have power : Short (2 ^ 63) := ⟨1, 63, rfl, by decide⟩
  rw [clampInt64, least, greatest]
  split
  · next below =>
    have bound : max (-2 ^ 63) (min n (2 ^ 63)) = -2 ^ 63 := by omega
    rw [bound, least]
    exact exists_standsFor_ofInt power.neg (by decide)
  · next notBelow =>
    split
    · next above =>
      -- the greatest integer has too many digits and becomes the double of the
      -- power after it
      have rounded : ofInt (2 ^ 63 - 1) = ofInt (2 ^ 63) := by decide +kernel
      have bound : max (-2 ^ 63) (min n (2 ^ 63)) = 2 ^ 63 := by omega
      rw [bound, greatest, rounded]
      exact exists_standsFor_ofInt power (by decide)
    · next notAbove =>
      have bound : max (-2 ^ 63) (min n (2 ^ 63)) = n := by omega
      rw [bound, Int64.toInt_ofInt_of_le (by omega) (by omega)]
      exact exists_standsFor_ofInt short (by omega)

theorem StandsFor.isFinite (stands : StandsFor float x) :
    float.isFinite = true := by
  change float.toModel.unpack.isFinite = true
  rw [stands.unpack, unpacked]
  split <;> rfl

/-- The double nearest to a whole number of at most sixty-five digits is
finite. -/
theorem isFinite_ofInt {n : Int} (fits : n.natAbs ≤ 2 ^ 64) :
    (ofInt n).isFinite = true := by
  rcases Nat.eq_zero_or_pos n.natAbs with zero | positive
  · rw [Int.natAbs_eq_zero.1 zero]
    rfl
  · have few : n.natAbs.log2 ≤ 900 := by
      have short := (Nat.log2_lt positive.ne').2 (by omega : n.natAbs < 2 ^ 65)
      omega
    rw [ofInt]
    split
    · exact (standsFor_nearest positive few).neg.isFinite
    · exact (standsFor_nearest positive few).isFinite

/-- No double is beyond the greatest finite one. -/
theorem value_le {x : Exact} (normal : x.Normal) :
    |x.value| ≤ (2 ^ 53 - 1) * 2 ^ (971 : Int) := by
  have size : |x.value| = x.magnitude := by
    rw [value]
    split
    · rw [abs_neg, abs_of_nonneg x.magnitude_nonneg]
    · rw [abs_of_nonneg x.magnitude_nonneg]
  have few : (x.mantissa : ℚ) ≤ 2 ^ 53 - 1 := by
    have small := normal.small
    exact_mod_cast (by omega : (x.mantissa : Int) ≤ 2 ^ 53 - 1)
  rw [size, magnitude]
  exact mul_le_mul few (zpow_le_zpow_right₀ one_le_two normal.highest)
    (by positivity) (by norm_num)

end Exact
end Number
end MotionScene
