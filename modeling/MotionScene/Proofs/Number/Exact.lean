import Mathlib.Algebra.Order.Field.Power
import Mathlib.Data.Rat.Cast.Order
import Mathlib.Tactic.FieldSimp
import Mathlib.Tactic.Linarith
import Mathlib.Tactic.NormNum
import MotionScene.Number.Exact

/-!
# Finite doubles are their exact values

Every finite double has an exact value in a normal form, and the exact value
determines the double.  Magnitudes are compared as rational numbers.
-/

namespace MotionScene
namespace Number

theorem twoTo_eq (exponent : Nat) : twoTo exponent = 2 ^ exponent := by
  rw [twoTo, Nat.pow_eq]

theorem tenTo_eq (exponent : Nat) : tenTo exponent = 10 ^ exponent := by
  rw [tenTo, Nat.pow_eq]

/-- A power with an integer exponent, as the quotient of its two natural
powers. -/
theorem zpow_eq_div (base : ℚ) (exponent : Int) :
    base ^ exponent = base ^ exponent.toNat / base ^ (-exponent).toNat := by
  rcases Int.eq_nat_or_neg exponent with ⟨n, rfl | rfl⟩
  · simp
  · simp

namespace Exact

/-- The form of the exact value of a double: a mantissa of fifty-three bits
whose leading bit is set unless the exponent is the lowest. -/
structure Normal (x : Exact) : Prop where
  small : x.mantissa < 2 ^ 53
  lowest : -1074 ≤ x.exponent
  highest : x.exponent ≤ 971
  leading : 2 ^ 52 ≤ x.mantissa ∨ x.exponent = -1074

/-- The value without its sign. -/
def magnitude (x : Exact) : ℚ :=
  x.mantissa * 2 ^ x.exponent

theorem denominator_pos (x : Exact) : 0 < x.denominator :=
  Nat.pow_pos (by decide)

theorem magnitude_eq_div (x : Exact) :
    x.magnitude = x.numerator / x.denominator := by
  rw [magnitude, zpow_eq_div, numerator, denominator, twoTo_eq, twoTo_eq]
  push_cast
  rw [mul_div_assoc]

/-- The bits of the double of a normal exact value. -/
def bits (x : Exact) : Nat :=
  (if x.negative then 2 ^ 63 else 0) +
    if x.mantissa < 2 ^ 52 then x.mantissa
    else (x.exponent + 1075).toNat * 2 ^ 52 + (x.mantissa - 2 ^ 52)

variable {float : Float} {x : Exact}

/-- What the bits of a double with an exact value are. -/
theorem ofFloat?_cases (exact : ofFloat? float = some x) :
    float.toBits.toNat / 2 ^ 52 % 2048 = 0 ∧
        x =
          ⟨decide (2 ^ 63 ≤ float.toBits.toNat),
            float.toBits.toNat % 2 ^ 52, -1074⟩ ∨
      float.toBits.toNat / 2 ^ 52 % 2048 ≠ 0 ∧
        float.toBits.toNat / 2 ^ 52 % 2048 ≠ 2047 ∧
        x = ⟨decide (2 ^ 63 ≤ float.toBits.toNat),
          float.toBits.toNat % 2 ^ 52 + 2 ^ 52,
          (float.toBits.toNat / 2 ^ 52 % 2048 : Nat) - 1075⟩ := by
  unfold ofFloat? at exact
  simp only [twoTo_eq] at exact
  by_cases special : float.toBits.toNat / 2 ^ 52 % 2048 = 2047
  · rw [if_pos special] at exact
    cases exact
  · rw [if_neg special] at exact
    by_cases lowest : float.toBits.toNat / 2 ^ 52 % 2048 = 0
    · rw [if_pos lowest] at exact
      exact Or.inl ⟨lowest, (Option.some.inj exact).symm⟩
    · rw [if_neg lowest] at exact
      exact Or.inr ⟨lowest, special, (Option.some.inj exact).symm⟩

theorem normal_of_ofFloat? (exact : ofFloat? float = some x) : x.Normal := by
  rcases ofFloat?_cases exact with ⟨lowest, rfl⟩ | ⟨above, special, rfl⟩
  · exact ⟨by simp only; omega, le_rfl, by norm_num, Or.inr rfl⟩
  · constructor <;> simp only <;> omega

theorem toBits_of_ofFloat? (exact : ofFloat? float = some x) :
    float.toBits.toNat = x.bits := by
  have bound := float.toBits.toNat_lt
  rcases ofFloat?_cases exact with ⟨_, rfl⟩ | ⟨_, _, rfl⟩
  · simp only [bits, decide_eq_true_eq]
    split <;> split <;> omega
  · simp only [bits, decide_eq_true_eq]
    split <;> split <;> omega

/-- Two doubles with one exact value are the same double. -/
theorem ofFloat?_inj
    {first second : Float}
    (exactFirst : ofFloat? first = some x)
    (exactSecond : ofFloat? second = some x) :
    first = second := by
  have same : first.toBits = second.toBits :=
    UInt64.toNat_inj.1
      ((toBits_of_ofFloat? exactFirst).trans
        (toBits_of_ofFloat? exactSecond).symm)
  cases first with
  | ofModel firstModel =>
      cases second with
      | ofModel secondModel =>
          cases firstModel
          cases secondModel
          cases same
          rfl

/-- The exponent field of a finite double has a zero among its eleven bits. -/
theorem field_ne_of_isFinite (finite : float.isFinite = true) :
    float.toBits.toNat / 2 ^ 52 % 2048 ≠ 2047 := by
  intro special
  change float.toModel.toBits.toNat / 2 ^ 52 % 2048 = 2047 at special
  have ones :
      @Float.Model.UnpackedFloat.unpackExponent Float.Model.Format.binary64
      float.toModel.toBits.toBitVec = -1#11 := by
    apply BitVec.eq_of_toNat_eq
    simpa [Float.Model.UnpackedFloat.unpackExponent, Nat.shiftRight_eq_div_pow]
      using special
  have infinite : float.isFinite = false := by
    unfold Float.isFinite Float.Model.isFinite Float.Model.unpack
      Float.Model.UnpackedFloat.unpack
    dsimp only
    rw [if_pos ones]
    split <;> rfl
  rw [infinite] at finite
  cases finite

/-- A finite double has an exact value. -/
theorem exists_ofFloat? (finite : float.isFinite = true) :
    ∃ x, ofFloat? float = some x := by
  unfold ofFloat?
  simp only [twoTo_eq]
  rw [if_neg (field_ne_of_isFinite finite)]
  by_cases lowest : float.toBits.toNat / 2 ^ 52 % 2048 = 0
  · exact ⟨_, if_pos lowest⟩
  · exact ⟨_, if_neg lowest⟩

end Exact
end Number
end MotionScene
