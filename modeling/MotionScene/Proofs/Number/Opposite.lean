import MotionScene.Proofs.Number.Whole

/-!
# Opposite doubles

The arithmetic of doubles does not prefer a sign: products by one factor, sums
and differences of opposite doubles are opposite again, however they are
rounded.  Only the sign of a zero may differ, which does not show when doubles
are compared as numbers.
-/

namespace MotionScene
namespace Number

open Float.Model Float.Model.UnpackedFloat

/-! ## Storing -/

/-- What is left of a number after it is stored as a double. -/
def stored (u : UnpackedFloat) : UnpackedFloat :=
  UnpackedFloat.unpack Format.binary64 (UnpackedFloat.pack Format.binary64 u)

/-- A sign has no influence on how the rest of the bits is read. -/
theorem unpack_packComponents_neg
    (sign : Sign)
    (exponent : BitVec 11)
    (mantissa : BitVec 52) :
    UnpackedFloat.unpack Format.binary64
        (packComponents Format.binary64 (-sign) exponent mantissa) =
      (UnpackedFloat.unpack Format.binary64
        (packComponents Format.binary64 sign exponent mantissa)).neg := by
  simp only [UnpackedFloat.unpack, unpackMantissa_packComponents,
    unpackExponent_packComponents, unpackSign_packComponents,
    Sign.ofBitVec_toBitVec]
  split
  · split <;> rfl
  · split
    · split <;> rfl
    · rfl

theorem stored_neg (u : UnpackedFloat) : stored u.neg = (stored u).neg := by
  cases u with
  | notANumber => rfl
  | infinity sign => exact unpack_packComponents_neg sign _ _
  | zero sign => exact unpack_packComponents_neg sign _ _
  | finite sign mantissa exponent positive =>
      simp only [stored, UnpackedFloat.neg, UnpackedFloat.pack]
      split
      · exact unpack_packComponents_neg sign _ _
      · split
        · exact unpack_packComponents_neg sign _ _
        · exact unpack_packComponents_neg sign _ _

/-- A number below the normal ones can be read back from its bits. -/
theorem stored_of_small
    {sign : Sign}
    {mantissa : BitVec 52}
    (positive : 0 < mantissa.toNat) :
    stored (.finite sign mantissa.toNat (-1074) positive) =
      .finite sign mantissa.toNat (-1074) positive := by
  have short : mantissa.toNat.log2 + 1 ≠ Format.binary64.mantissaBits := by
    have few := (Nat.log2_lt positive.ne').2 mantissa.isLt
    change _ ≠ 53
    omega
  have nonzero : mantissa ≠ 0#52 := by
    rintro rfl
    exact positive.ne' rfl
  have biased : (-1074 + (Format.binary64.exponentBias : Int) +
      (Format.binary64.mantissaBitsWithoutImplicit : Int)).toNat = 1 := rfl
  simp only [stored, UnpackedFloat.pack, biased]
  rw [if_neg (by decide), if_neg short, UnpackedFloat.unpack]
  simp only [unpackMantissa_packComponents, unpackExponent_packComponents,
    unpackSign_packComponents, Sign.ofBitVec_toBitVec, BitVec.ofNat_toNat,
    BitVec.setWidth_eq]
  rw [if_neg (by decide), if_pos trivial, dif_neg nonzero]
  rfl

/-- A normal number can be read back from its bits. -/
theorem stored_of_normal
    {sign : Sign}
    {field : BitVec 11}
    {mantissa : BitVec 52}
    (notOnes : field ≠ -1#11)
    (notZero : field ≠ 0#11)
    (positive : 0 < (1#1 ++ mantissa).toNat) :
    stored
        (.finite sign (1#1 ++ mantissa).toNat (field.toNat - 1075) positive) =
      .finite sign (1#1 ++ mantissa).toNat (field.toNat - 1075) positive := by
  have low : mantissa.toNat < 2 ^ 52 := mantissa.isLt
  have whole : (1#1 ++ mantissa).toNat = 2 ^ 52 + mantissa.toNat := by
    rw [BitVec.toNat_append, ← Nat.shiftLeft_add_eq_or_of_lt low]
    rfl
  have bound : field.toNat < 2048 := field.isLt
  have isPositive : field.toNat ≠ 0 :=
    fun same => notZero (BitVec.eq_of_toNat_eq same)
  have notHighest : field.toNat ≠ 2047 :=
    fun same => notOnes (BitVec.eq_of_toNat_eq same)
  refine unpack_pack positive ?_ (by omega) (by omega)
  rw [Nat.log2_eq_iff positive.ne', whole]
  omega

theorem stored_infinity (sign : Sign) :
    stored (.infinity sign) = .infinity sign := by
  cases sign <;> rfl

theorem stored_zero (sign : Sign) : stored (.zero sign) = .zero sign := by
  cases sign <;> rfl

/-- What is read from a double is stored as it is. -/
theorem stored_unpack (x : Float) :
    stored x.toModel.unpack = x.toModel.unpack := by
  rw [Float.Model.unpack]
  generalize x.toModel.toBits.toBitVec = bits
  rw [UnpackedFloat.unpack]
  simp only
  split
  · split
    · exact stored_infinity _
    · rfl
  · next notOnes =>
    split
    · next zero =>
      split
      · exact stored_zero _
      · rw [zero]
        exact stored_of_small _
    · next notZero =>
      exact stored_of_normal notOnes notZero _

/-! ## Equal up to the sign of a zero -/

/-- Two numbers are the same, or both are zero. -/
inductive Like : UnpackedFloat → UnpackedFloat → Prop where
  | refl (u : UnpackedFloat) : Like u u
  | zero (sign other : Sign) : Like (.zero sign) (.zero other)

namespace Like

variable {u v w : UnpackedFloat}

theorem trans (first : Like u v) (second : Like v w) : Like u w := by
  cases first with
  | refl => exact second
  | zero sign other =>
      cases second with
      | refl => exact .zero sign other
      | zero _ last => exact .zero sign last

theorem neg (like : Like u v) : Like u.neg v.neg := by
  cases like with
  | refl => exact .refl _
  | zero sign other => exact .zero _ _

theorem stored (like : Like u v) : Like (stored u) (stored v) := by
  cases like with
  | refl => exact .refl _
  | zero sign other =>
      rw [stored_zero, stored_zero]
      exact .zero sign other

theorem mul (like : Like u v) (w : UnpackedFloat) :
    Like (UnpackedFloat.mul Format.binary64 u w)
      (UnpackedFloat.mul Format.binary64 v w) := by
  cases like with
  | refl => exact .refl _
  | zero sign other =>
      cases w with
      | notANumber => exact .refl _
      | infinity _ => exact .refl _
      | zero _ => exact .zero _ _
      | finite _ _ _ _ => exact .zero _ _

theorem add_left (like : Like u v) (w : UnpackedFloat) :
    Like (UnpackedFloat.add Format.binary64 u w)
      (UnpackedFloat.add Format.binary64 v w) := by
  cases like with
  | refl => exact .refl _
  | zero sign other =>
      cases w with
      | notANumber => exact .refl _
      | infinity _ => exact .refl _
      | zero third =>
          cases sign <;> cases other <;> cases third <;> exact .zero _ _
      | finite _ _ _ _ => exact .refl _

theorem add_right (u : UnpackedFloat) (like : Like v w) :
    Like (UnpackedFloat.add Format.binary64 u v)
      (UnpackedFloat.add Format.binary64 u w) := by
  cases like with
  | refl => exact .refl _
  | zero sign other =>
      cases u with
      | notANumber => exact .refl _
      | infinity _ => exact .refl _
      | zero first =>
          cases first <;> cases sign <;> cases other <;> exact .zero _ _
      | finite _ _ _ _ => exact .refl _

end Like

/-! ## Changing signs -/

section Signs

variable (sign other : Sign)

theorem neg_mul_sign : -sign * other = -(sign * other) := by
  cases sign <;> cases other <;> rfl

theorem apply_neg_sign (n : Int) : (-sign).apply n = -sign.apply n := by
  cases sign
  · exact (neg_neg n).symm
  · rfl

theorem beq_neg_neg_sign : (-sign == -other) = (sign == other) := by
  cases sign <;> cases other <;> rfl

theorem eq_of_compare_sign
    {sign other : Sign}
    (equal : compare sign other = .eq) :
    sign = other := by
  cases sign <;> cases other
  · rfl
  · cases equal
  · cases equal
  · rfl

end Signs

/-- Rounding treats both signs alike. -/
theorem roundWithAccuracy_neg
    (sign : Sign)
    (mantissa : Nat)
    (exponent : Int)
    (accuracy : Accuracy) :
    roundWithAccuracy Format.binary64 (-sign) mantissa exponent accuracy =
      (roundWithAccuracy Format.binary64 sign mantissa exponent
        accuracy).neg := by
  simp only [roundWithAccuracy]
  split <;> rfl

theorem mul_neg_left (u w : UnpackedFloat) :
    UnpackedFloat.mul Format.binary64 u.neg w =
      (UnpackedFloat.mul Format.binary64 u w).neg := by
  cases u with
  | notANumber => rfl
  | infinity sign =>
      cases w with
      | notANumber => rfl
      | infinity other =>
          exact congrArg UnpackedFloat.infinity (neg_mul_sign sign other)
      | zero _ => rfl
      | finite other _ _ _ =>
          exact congrArg UnpackedFloat.infinity (neg_mul_sign sign other)
  | zero sign =>
      cases w with
      | notANumber => rfl
      | infinity _ => rfl
      | zero other =>
          exact congrArg UnpackedFloat.zero (neg_mul_sign sign other)
      | finite other _ _ _ =>
          exact congrArg UnpackedFloat.zero (neg_mul_sign sign other)
  | finite sign mantissa exponent positive =>
      cases w with
      | notANumber => rfl
      | infinity other =>
          exact congrArg UnpackedFloat.infinity (neg_mul_sign sign other)
      | zero other =>
          exact congrArg UnpackedFloat.zero (neg_mul_sign sign other)
      | finite other _ _ _ =>
          rw [UnpackedFloat.neg, UnpackedFloat.mul, neg_mul_sign]
          exact roundWithAccuracy_neg (sign * other) _ _ _

theorem round_neg (sign : Sign) (mantissa : Nat) (exponent : Int) :
    UnpackedFloat.round Format.binary64 (-sign) mantissa exponent =
      (UnpackedFloat.round Format.binary64 sign mantissa exponent).neg :=
  roundWithAccuracy_neg sign _ _ _

/-- A sum and its opposite are rounded to opposite numbers. -/
theorem like_normalize_neg (mantissa exponent : Int) :
    Like
      (UnpackedFloat.normalize Format.binary64 (-mantissa) exponent .positive)
      (UnpackedFloat.normalize Format.binary64 mantissa exponent
        .positive).neg := by
  rw [UnpackedFloat.normalize, UnpackedFloat.normalize]
  rcases lt_trichotomy mantissa 0 with below | rfl | above
  · rw [Int.compare_eq_gt.2 (neg_pos.2 below), Int.compare_eq_lt.2 below]
    simp only
    rw [← round_neg]
    exact .refl _
  · exact .zero _ _
  · rw [Int.compare_eq_lt.2 (neg_neg_of_pos above), Int.compare_eq_gt.2 above]
    simp only [neg_neg]
    rw [← round_neg]
    exact .refl _

theorem like_add_neg (u v : UnpackedFloat) :
    Like (UnpackedFloat.add Format.binary64 u.neg v.neg)
      (UnpackedFloat.add Format.binary64 u v).neg := by
  cases u with
  | notANumber => exact .refl _
  | infinity sign =>
      cases v with
      | infinity other =>
          simp only [UnpackedFloat.neg, UnpackedFloat.add, beq_neg_neg_sign]
          split <;> exact .refl _
      | _ => exact .refl _
  | zero sign =>
      cases v with
      | zero other =>
          simp only [UnpackedFloat.neg, UnpackedFloat.add, beq_neg_neg_sign]
          split <;> exact .zero _ _
      | _ => exact .refl _
  | finite sign mantissa exponent positive =>
      cases v with
      | finite other _ _ _ =>
          simp only [UnpackedFloat.neg, UnpackedFloat.add, apply_neg_sign]
          rw [← neg_add]
          exact like_normalize_neg _ _
      | _ => exact .refl _

theorem sub_eq_add_opposite (u v : UnpackedFloat) :
    UnpackedFloat.sub Format.binary64 u v =
      UnpackedFloat.add Format.binary64 u v.neg := by
  cases u with
  | finite sign _ _ _ =>
      cases v with
      | finite other _ _ _ =>
          simp only [UnpackedFloat.neg, UnpackedFloat.add, UnpackedFloat.sub,
            apply_neg_sign]
          rw [← sub_eq_add_neg]
      | _ => rfl
  | _ => cases v <;> rfl

/-! ## Doubles -/

section Doubles

variable {x y x' y' : Float}

theorem unpack_neg (x : Float) :
    (-x).toModel.unpack = x.toModel.unpack.neg := by
  change stored x.toModel.unpack.neg = _
  rw [stored_neg, stored_unpack]

/-- Two doubles are opposite, but for the signs of zeros. -/
def Opposite (x y : Float) : Prop :=
  Like x.toModel.unpack y.toModel.unpack.neg

namespace Opposite

/-- The negative of a double is opposite to it. -/
theorem neg_self (x : Float) : Opposite (-x) x := by
  rw [Opposite, unpack_neg]
  exact .refl _

theorem mul (opposite : Opposite x y) (factor : Float) :
    Opposite (x * factor) (y * factor) := by
  have products := (Like.mul opposite factor.toModel.unpack).stored
  rw [mul_neg_left, stored_neg] at products
  exact products

theorem add (opposite : Opposite x y) (other : Opposite x' y') :
    Opposite (x + x') (y + y') := by
  have sums :=
    (((Like.add_left opposite _).trans (Like.add_right _ other)).trans
      (like_add_neg _ _)).stored
  rw [stored_neg] at sums
  exact sums

theorem sub (opposite : Opposite x y) (other : Opposite x' y') :
    Opposite (x - x') (y - y') := by
  have differences :=
    (((Like.add_left opposite _).trans
      (Like.add_right _ (Like.neg other))).trans (like_add_neg _ _)).stored
  rw [stored_neg, ← sub_eq_add_opposite, ← sub_eq_add_opposite] at differences
  exact differences

end Opposite

theorem like_of_compare_eq
    {u v : UnpackedFloat}
    (equal : u.compare v = some .eq) :
    Like u v := by
  cases u with
  | notANumber => cases equal
  | infinity sign =>
      cases v with
      | infinity other =>
          rw [eq_of_compare_sign (Option.some.inj equal)]
          exact .refl _
      | _ => cases sign <;> cases equal
  | zero sign =>
      cases v with
      | zero other => exact .zero sign other
      | notANumber => cases equal
      | infinity other => cases other <;> cases equal
      | finite other _ _ _ => cases other <;> cases equal
  | finite sign mantissa exponent positive =>
      cases v with
      | notANumber => cases equal
      | infinity other => cases sign <;> cases other <;> cases equal
      | zero _ => cases sign <;> cases equal
      | finite other mantissa' exponent' positive' =>
          have same : sign = other ∧ exponent = exponent' ∧
              mantissa = mantissa' := by
            cases sign <;> cases other
            · simpa [UnpackedFloat.compare, Ordering.then_eq_eq] using equal
            · cases equal
            · cases equal
            · simpa [UnpackedFloat.compare, Ordering.then_eq_eq] using equal
          obtain ⟨rfl, rfl, rfl⟩ := same
          exact .refl _

theorem compare_self {u : UnpackedFloat} (isNumber : u ≠ .notANumber) :
    u.compare u = some .eq := by
  cases u with
  | notANumber => exact absurd rfl isNumber
  | infinity sign => cases sign <;> rfl
  | zero _ => rfl
  | finite sign _ _ _ => cases sign <;> simp [UnpackedFloat.compare]

/-- Doubles are equal as numbers if and only if they are numbers and the same
but for the sign of a zero. -/
theorem beq_iff :
    (x == y) = true ↔
      Like x.toModel.unpack y.toModel.unpack ∧
        x.toModel.unpack ≠ .notANumber := by
  change (x.toModel.unpack.compare y.toModel.unpack == some .eq) = true ↔ _
  rw [beq_iff_eq]
  constructor
  · intro equal
    refine ⟨like_of_compare_eq equal, fun notNumber => ?_⟩
    rw [notNumber] at equal
    cases equal
  · rintro ⟨like, isNumber⟩
    generalize x.toModel.unpack = u at like isNumber ⊢
    generalize y.toModel.unpack = v at like ⊢
    cases like with
    | refl => exact compare_self isNumber
    | zero _ _ => rfl

theorem beq_self_iff : (x == x) = true ↔ x.toModel.unpack ≠ .notANumber :=
  beq_iff.trans (and_iff_right (.refl _))

theorem Opposite.beq_self_iff (opposite : Opposite x y) :
    (x == x) = true ↔ (y == y) = true := by
  rw [Number.beq_self_iff, Number.beq_self_iff]
  rw [Opposite] at opposite
  generalize x.toModel.unpack = u at opposite ⊢
  generalize y.toModel.unpack = v at opposite ⊢
  cases v with
  | notANumber =>
      cases opposite
      exact Iff.rfl
  | _ => cases opposite <;> exact iff_of_true nofun nofun

/-- Doubles are opposite as numbers if and only if they are opposite and
numbers. -/
theorem beq_neg_iff : (x == -y) = true ↔ Opposite x y ∧ (x == x) = true := by
  rw [beq_iff, beq_self_iff, unpack_neg, Opposite]

/-- Only zero is its own opposite. -/
theorem beq_zero_iff : (x == 0.0) = true ↔ Opposite x x ∧ (x == x) = true := by
  rw [beq_iff, beq_self_iff, Opposite]
  refine and_congr_left fun isNumber => ?_
  have isZero : (0.0 : Float).toModel.unpack = .zero .positive := rfl
  rw [isZero]
  generalize x.toModel.unpack = u at isNumber ⊢
  cases u with
  | notANumber => exact absurd rfl isNumber
  | zero sign => exact iff_of_true (.zero _ _) (.zero _ _)
  | infinity sign => cases sign <;> exact iff_of_false nofun nofun
  | finite sign _ _ _ => cases sign <;> exact iff_of_false nofun nofun

end Doubles

end Number
end MotionScene
