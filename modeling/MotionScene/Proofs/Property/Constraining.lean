import MotionScene.Proofs.Number.Order
import MotionScene.Property.Basic

/-!
# Constraining a value twice

A value is moved up to the lower bound and then down to the upper bound, so that
the upper bound wins where the bounds are given in the wrong order.  Bounds of
whole numbers are rounded inwards first, and stay bounds when the numbers are
compared as doubles.  A constrained value is therefore left alone the second
time.  Only NaN goes straight to the lower bound, past an upper bound below it.
-/

namespace MotionScene

/-! ## Moving past a bound -/

namespace Constraints

section Moving

variable {α β : Type} {lower upper : Option β} {below above : β → α → Prop}
  [∀ bound, DecidablePred (below bound)] [∀ bound, DecidablePred (above bound)]
  {floor ceiling : β → α}

/-- A value, or the place of a bound if it is beyond the bound. -/
def moved
    (beyond : β → α → Prop)
    [∀ bound, DecidablePred (beyond bound)]
    (place : β → α)
    (bound : Option β)
    (value : α) : α :=
  match bound with
  | some bound => if beyond bound value then place bound else value
  | none => value

theorem moved_moved (bound : Option β) (value : α) :
    moved below floor bound (moved below floor bound value) =
      moved below floor bound value := by
  cases bound with
  | none => rfl
  | some bound =>
      by_cases beyond : below bound value
      · simp only [moved, if_pos beyond, ite_self]
      · simp only [moved, if_neg beyond]

theorem moved_place (bound : β) :
    moved below floor (some bound) (floor bound) = floor bound :=
  ite_self _

/-- The upper bound wins, so moving up and down again changes nothing.  Only
where the place of the upper bound is moved up to a place that is not moved down
again, the two places have to be the same. -/
theorem moved_moved_moved
    (meet : ∀ low ∈ lower, ∀ high ∈ upper,
      below low (ceiling high) → ¬ above high (floor low) →
        floor low = ceiling high)
    (value : α) :
    moved above ceiling upper (moved below floor lower
        (moved above ceiling upper (moved below floor lower value))) =
      moved above ceiling upper (moved below floor lower value) := by
  cases upper with
  | none => exact moved_moved lower value
  | some high =>
      by_cases beyond : above high (moved below floor lower value)
      · have lowered :
            moved above ceiling (some high) (moved below floor lower value) =
            ceiling high := if_pos beyond
        -- the value stands at the upper bound now, and comes back to it from
        -- wherever it is moved up to
        rw [lowered]
        cases lower with
        | none => exact moved_place high
        | some low =>
            by_cases inverted : below low (ceiling high)
            · have raised : moved below floor (some low) (ceiling high) =
                  floor low := if_pos inverted
              rw [raised]
              by_cases outside : above high (floor low)
              · exact if_pos outside
              · rw [meet low rfl high rfl inverted outside, moved_place]
            · have kept :
                  moved below floor (some low) (ceiling high) = ceiling high :=
                if_neg inverted
              rw [kept, moved_place]
      · have kept :
            moved above ceiling (some high) (moved below floor lower value) =
            moved below floor lower value := if_neg beyond
        rw [kept, moved_moved, kept]

end Moving

end Constraints

/-! ## Finite doubles -/

namespace Number

variable {x y : Float}

theorem exists_standsFor (finite : x.isFinite = true) :
    ∃ exact, Exact.StandsFor x exact :=
  (Exact.exists_ofFloat? finite).imp fun _ => Exact.standsFor_of_ofFloat?

theorem isNaN_iff : x.isNaN = true ↔ x.toModel.unpack = .notANumber := by
  change x.toModel.unpack.isNaN = true ↔ _
  cases x.toModel.unpack <;> simp [Float.Model.UnpackedFloat.isNaN]

theorem isNaN_eq_false_of_isFinite (finite : x.isFinite = true) :
    x.isNaN = false := by
  change x.toModel.unpack.isFinite = true at finite
  change x.toModel.unpack.isNaN = false
  generalize x.toModel.unpack = u at finite ⊢
  cases u <;> first | rfl | cases finite

theorem beq_self_of_number (number : x.isNaN = false) : (x == x) = true := by
  rw [beq_self_iff, Ne, ← isNaN_iff, number]
  exact Bool.false_ne_true

theorem beq_eq_false_of_lt (less : x < y) : (x == y) = false := by
  change (x.toModel.unpack.compare y.toModel.unpack == some .eq) = false
  rw [lt_iff_compare.1 less]
  rfl

/-! ## Bounds of whole numbers -/

theorem clampInt64_eq_of_meeting
    {least greatest : Int}
    (below : max (-2 ^ 63) (min greatest (2 ^ 63)) < least)
    (above : max (-2 ^ 63) (min least (2 ^ 63)) ≤ greatest) :
    clampInt64 least = clampInt64 greatest := by
  have lowest : Int64.minValue.toInt = -2 ^ 63 := rfl
  have highest : Int64.maxValue.toInt = 2 ^ 63 - 1 := rfl
  rw [clampInt64, clampInt64, lowest, highest, if_neg (by omega),
    if_pos (by omega), if_neg (by omega), if_pos (by omega)]

/-- Where the greatest whole number under the upper bound is still below the
lower bound, and the least one over the lower bound is within the upper bound,
both have been cut off at the same end of the range. -/
theorem toInt64_eq_of_meeting
    {low high : Float}
    (finiteLow : low.isFinite = true)
    (finiteHigh : high.isFinite = true)
    (below : ofInt (toInt64 Exact.floor high).toInt < low)
    (notAbove : ¬ high < ofInt (toInt64 Exact.ceil low).toInt) :
    toInt64 Exact.ceil low = toInt64 Exact.floor high := by
  obtain ⟨x, exactLow⟩ := Exact.exists_ofFloat? finiteLow
  obtain ⟨y, exactHigh⟩ := Exact.exists_ofFloat? finiteHigh
  have standsLow := Exact.standsFor_of_ofFloat? exactLow
  have standsHigh := Exact.standsFor_of_ofFloat? exactHigh
  have isCeil : toInt64 Exact.ceil low = clampInt64 ⌈x.value⌉ := by
    rw [toInt64, exactLow, ← Exact.ceil_eq]
  have isFloor : toInt64 Exact.floor high = clampInt64 ⌊y.value⌋ := by
    rw [toInt64, exactHigh, ← Exact.floor_eq]
  obtain ⟨least, standsLeast, valueLeast⟩ :=
    Exact.exists_standsFor_clampInt64 (Exact.short_ceil standsLow.normal)
  obtain ⟨greatest, standsGreatest, valueGreatest⟩ :=
    Exact.exists_standsFor_clampInt64 (Exact.short_floor standsHigh.normal)
  rw [Exact.ceil_eq] at standsLeast valueLeast
  rw [Exact.floor_eq] at standsGreatest valueGreatest
  rw [isFloor, standsGreatest.lt_iff standsLow, valueGreatest, ← Int.lt_ceil]
    at below
  rw [isCeil, standsHigh.lt_iff standsLeast, valueLeast, not_lt, ← Int.le_floor]
    at notAbove
  rw [isCeil, isFloor]
  exact clampInt64_eq_of_meeting below notAbove

end Number

namespace Constraints

open Number

/-- The greatest finite double in exact form. -/
def greatest : Exact := ⟨false, 2 ^ 53 - 1, 971⟩

theorem standsFor_greatestFloat : Exact.StandsFor greatestFloat greatest := by
  refine Exact.standsFor_of_ofFloat? ?_
  decide +kernel

theorem value_greatest : greatest.value = (2 ^ 53 - 1) * 2 ^ (971 : Int) := by
  rw [greatest, Exact.value, if_neg Bool.false_ne_true, Exact.magnitude]
  norm_num

section MakeFinite

variable {x : Float}

theorem makeFinite_of_isFinite (finite : x.isFinite = true) :
    makeFinite x = x := by
  obtain ⟨exact, stands⟩ := exists_standsFor finite
  obtain ⟨low, high⟩ := abs_le.1 (Exact.value_le stands.normal)
  rw [← value_greatest] at low high
  rw [makeFinite, if_neg, if_neg]
  · rw [standsFor_greatestFloat.lt_iff stands]
    exact not_lt.2 high
  · rw [stands.lt_iff standsFor_greatestFloat.neg, Exact.value_neg]
    exact not_lt.2 low

theorem isFinite_makeFinite (number : x.isNaN = false) :
    (makeFinite x).isFinite = true := by
  rw [makeFinite]
  split
  · exact standsFor_greatestFloat.neg.isFinite
  · next notBelow =>
    split
    · exact standsFor_greatestFloat.isFinite
    · next notAbove =>
      rw [lt_iff_compare, standsFor_greatestFloat.neg.unpack] at notBelow
      rw [lt_iff_compare, standsFor_greatestFloat.unpack] at notAbove
      change x.toModel.unpack.isNaN = false at number
      change x.toModel.unpack.isFinite = true
      cases read : x.toModel.unpack with
      | notANumber =>
          rw [read] at number
          cases number
      | infinity sign =>
          rw [read] at notBelow notAbove
          cases sign with
          | positive => exact absurd rfl notAbove
          | negative => exact absurd rfl notBelow
      | zero sign => rfl
      | finite sign mantissa exponent positive => rfl

end MakeFinite

/-! ## Doubles within bounds -/

variable {constraints : Constraints}

/-- Every bound there is is finite. -/
structure HasFiniteBounds (constraints : Constraints) : Prop where
  min : ∀ low ∈ constraints.min, low.isFinite = true
  max : ∀ high ∈ constraints.max, high.isFinite = true

/-- The upper bound is below the lower one. -/
def Inverted (constraints : Constraints) : Prop :=
  ∃ low ∈ constraints.min, ∃ high ∈ constraints.max, high < low

/-- A double moved up to the lower bound and down to the upper one. -/
def between (constraints : Constraints) (x : Float) : Float :=
  moved (fun high x => high < x) id constraints.max
    (moved (fun low x => x < low) id constraints.min x)

theorem clampFloat_of_number {x : Float} (number : x.isNaN = false) :
    constraints.clampFloat x = constraints.between (makeFinite x) := by
  rw [clampFloat, if_neg (Bool.eq_false_iff.1 number), between]
  cases constraints.min <;> cases constraints.max <;> rfl

theorem clampFloat_of_isFinite {x : Float} (finite : x.isFinite = true) :
    constraints.clampFloat x = constraints.between x := by
  rw [clampFloat_of_number (isNaN_eq_false_of_isFinite finite),
    makeFinite_of_isFinite finite]

theorem isFinite_moved
    {beyond : Float → Float → Prop}
    [∀ bound, DecidablePred (beyond bound)]
    {bound : Option Float}
    (finiteBound : ∀ low ∈ bound, low.isFinite = true)
    {x : Float}
    (finite : x.isFinite = true) :
    (moved beyond id bound x).isFinite = true := by
  cases bound with
  | none => exact finite
  | some low =>
      simp only [moved]
      split
      · exact finiteBound low rfl
      · exact finite

theorem isFinite_between
    (finiteBounds : constraints.HasFiniteBounds)
    {x : Float}
    (finite : x.isFinite = true) :
    (constraints.between x).isFinite = true :=
  isFinite_moved finiteBounds.max (isFinite_moved finiteBounds.min finite)

theorem between_between (x : Float) :
    constraints.between (constraints.between x) = constraints.between x := by
  unfold between
  refine moved_moved_moved ?_ x
  intro low _ high _ below notBelow
  exact absurd below notBelow

/-- A clamped double is finite, whatever it was before. -/
theorem isFinite_clampFloat
    (finiteBounds : constraints.HasFiniteBounds)
    (x : Float) :
    (constraints.clampFloat x).isFinite = true := by
  cases number : x.isNaN with
  | false =>
      rw [clampFloat_of_number number]
      exact isFinite_between finiteBounds (isFinite_makeFinite number)
  | true =>
      rw [clampFloat, if_pos number]
      cases low : constraints.min with
      | some low => exact finiteBounds.min _ low
      | none =>
          cases high : constraints.max with
          | some high => exact finiteBounds.max _ high
          | none => rfl

theorem between_of_bounds
    {low high : Float}
    (isLow : constraints.min = some low)
    (isHigh : constraints.max = some high) :
    constraints.between low = if high < low then high else low := by
  have raised : moved (fun low x => x < low) id (some low) low = low :=
    ite_self _
  rw [between, isLow, isHigh, raised]
  rfl

/-- NaN becomes a double that bounds in the right order let stay. -/
theorem between_clampFloat_of_isNaN
    {x : Float}
    (notNumber : x.isNaN = true)
    (ordered : ¬ constraints.Inverted) :
    constraints.between (constraints.clampFloat x) =
      constraints.clampFloat x := by
  rw [clampFloat, if_pos notNumber]
  cases isLow : constraints.min with
  | none =>
      rw [between, isLow]
      cases constraints.max with
      | none => rfl
      | some high => exact moved_place high
  | some low =>
      cases isHigh : constraints.max with
      | none =>
          rw [between, isLow, isHigh]
          exact ite_self low
      | some high =>
          have notBelow : ¬ high < low :=
            fun below => ordered ⟨low, isLow, high, isHigh, below⟩
          exact (between_of_bounds isLow isHigh).trans (if_neg notBelow)

/-- With bounds in the wrong order the double that NaN becomes does not stay. -/
theorem between_clampFloat_lt
    {x : Float}
    (notNumber : x.isNaN = true)
    (inverted : constraints.Inverted) :
    constraints.between (constraints.clampFloat x) <
      constraints.clampFloat x := by
  obtain ⟨low, isLow, high, isHigh, below⟩ := inverted
  have becomes : constraints.clampFloat x = low := by
    rw [clampFloat, if_pos notNumber, isLow]
    rfl
  rw [becomes, between_of_bounds isLow isHigh, if_pos below]
  exact below

section Twice

variable (finiteBounds : constraints.HasFiniteBounds) {x : Float}
include finiteBounds

/-- A clamped double stays as it is, unless it came from NaN and the bounds are
in the wrong order. -/
theorem clampFloat_clampFloat
    (regular : x.isNaN = true → ¬ constraints.Inverted) :
    constraints.clampFloat (constraints.clampFloat x) =
      constraints.clampFloat x := by
  rw [clampFloat_of_isFinite (isFinite_clampFloat finiteBounds x)]
  cases number : x.isNaN with
  | true => exact between_clampFloat_of_isNaN number (regular number)
  | false =>
      rw [clampFloat_of_number number]
      exact between_between _

theorem clampFloat_clampFloat_lt
    (notNumber : x.isNaN = true)
    (inverted : constraints.Inverted) :
    constraints.clampFloat (constraints.clampFloat x) <
      constraints.clampFloat x := by
  rw [clampFloat_of_isFinite (isFinite_clampFloat finiteBounds x)]
  exact between_clampFloat_lt notNumber inverted

end Twice

/-! ## Whole numbers within bounds -/

theorem clampInteger_eq (n : Int64) :
    constraints.clampInteger n =
      moved (fun high n => high < ofInt (Int64.toInt n))
        (toInt64 Exact.floor) constraints.max
        (moved (fun low n => ofInt (Int64.toInt n) < low)
          (toInt64 Exact.ceil) constraints.min n) := by
  rw [clampInteger]
  cases constraints.min <;> cases constraints.max <;> rfl

/-- A clamped whole number stays as it is. -/
theorem clampInteger_clampInteger
    (finiteBounds : constraints.HasFiniteBounds)
    (n : Int64) :
    constraints.clampInteger (constraints.clampInteger n) =
      constraints.clampInteger n := by
  rw [clampInteger_eq n, clampInteger_eq]
  exact moved_moved_moved (fun low isLow high isHigh => toInt64_eq_of_meeting
    (finiteBounds.min low isLow) (finiteBounds.max high isHigh)) n

end Constraints

/-! ## Colors -/

namespace Color

theorem clampChannel_cases (x : Float) :
    clampChannel x = 0.0 ∨ clampChannel x = 1.0 ∨ clampChannel x = x ∧
      x.isNaN = false := by
  rw [clampChannel]
  split
  · exact Or.inl rfl
  · next number =>
    split
    · exact Or.inl rfl
    · split
      · exact Or.inr (Or.inl rfl)
      · exact Or.inr (Or.inr ⟨rfl, Bool.eq_false_iff.2 number⟩)

theorem clampChannel_clampChannel (x : Float) :
    clampChannel (clampChannel x) = clampChannel x := by
  rcases clampChannel_cases x with zero | one | ⟨same, _⟩
  · rw [zero]
    decide +kernel
  · rw [one]
    decide +kernel
  · rw [same, same]

theorem beq_clampChannel_self (x : Float) :
    (clampChannel x == clampChannel x) = true := by
  rcases clampChannel_cases x with zero | one | ⟨same, number⟩
  · rw [zero]
    rfl
  · rw [one]
    rfl
  · rw [same]
    exact Number.beq_self_of_number number

theorem clamped_clamped (c : Color) : c.clamped.clamped = c.clamped := by
  simp only [clamped, clampChannel_clampChannel]

theorem agrees_clamped_self (c : Color) :
    c.clamped.agrees c.clamped = true := by
  simp only [agrees, clamped, beq_clampChannel_self, Bool.and_self]

end Color

/-! ## Values -/

/-- Whether a number in a value is NaN.  Channels of a color do not count, as
their bounds are fixed. -/
def Value.hasNaN : Value → Bool
  | .float x => x.isNaN
  | .floatVector p => p.x.isNaN || p.y.isNaN
  | _ => false

namespace Constraints

open Number

variable {constraints : Constraints} {value : Value}

/-- A constrained value stays as it is, unless it came from NaN and the bounds
are in the wrong order. -/
theorem constrain_constrain
    (finiteBounds : constraints.HasFiniteBounds)
    (regular : value.hasNaN = true → ¬ constraints.Inverted) :
    constraints.constrain (constraints.constrain value) =
      constraints.constrain value := by
  cases value with
  | integer n =>
      exact congrArg Value.integer (clampInteger_clampInteger finiteBounds n)
  | float x =>
      exact congrArg Value.float (clampFloat_clampFloat finiteBounds regular)
  | integerVector x y =>
      exact congrArg₂ Value.integerVector
        (clampInteger_clampInteger finiteBounds x)
        (clampInteger_clampInteger finiteBounds y)
  | floatVector p =>
      have regularX : p.x.isNaN = true → ¬ constraints.Inverted :=
        fun notNumber =>
          regular (Bool.or_eq_true_iff.2 (Or.inl notNumber))
      have regularY : p.y.isNaN = true → ¬ constraints.Inverted :=
        fun notNumber =>
          regular (Bool.or_eq_true_iff.2 (Or.inr notNumber))
      simp only [constrain, clampFloat_clampFloat finiteBounds regularX,
        clampFloat_clampFloat finiteBounds regularY]
  | color c => exact congrArg Value.color c.clamped_clamped
  | options index =>
      simp only [constrain]
      split
      · rfl
      · exact congrArg Value.options
          (Nat.min_eq_left (Nat.min_le_right index _))
  | bool _ | string _ | reference _ | trigger => rfl

/-- A constrained value is equal to itself, as there is no NaN in it. -/
theorem agrees_constrain_self
    (finiteBounds : constraints.HasFiniteBounds)
    (value : Value) :
    (constraints.constrain value).agrees
        (constraints.constrain value) = true := by
  have self (x : Float) :
      (constraints.clampFloat x == constraints.clampFloat x) = true :=
    beq_self_of_number
      (isNaN_eq_false_of_isFinite (isFinite_clampFloat finiteBounds x))
  cases value with
  | float x => exact self x
  | floatVector p => exact Bool.and_eq_true_iff.2 ⟨self p.x, self p.y⟩
  | color c => exact c.agrees_clamped_self
  | _ => simp [constrain, Value.agrees]

theorem agrees_constrain_of_hasNaN
    (finiteBounds : constraints.HasFiniteBounds)
    (notNumber : value.hasNaN = true)
    (inverted : constraints.Inverted) :
    (constraints.constrain (constraints.constrain value)).agrees
        (constraints.constrain value) =
      false := by
  have apart {x : Float} (notNumber : x.isNaN = true) :
      (constraints.clampFloat (constraints.clampFloat x) ==
        constraints.clampFloat x) = false :=
    beq_eq_false_of_lt
      (clampFloat_clampFloat_lt finiteBounds notNumber inverted)
  cases value with
  | float x => exact apart notNumber
  | floatVector p =>
      refine Bool.and_eq_false_iff.2 ?_
      exact (Bool.or_eq_true_iff.1 notNumber).imp apart apart
  | _ => cases notNumber

/-- Constraining a constrained value leaves an equal one, unless the value has
NaN in it and the bounds are in the wrong order. -/
theorem agrees_constrain_iff (finiteBounds : constraints.HasFiniteBounds) :
    (constraints.constrain (constraints.constrain value)).agrees
        (constraints.constrain value) = true ↔
      ¬ (value.hasNaN = true ∧ constraints.Inverted) := by
  constructor
  · rintro same ⟨notNumber, inverted⟩
    rw [agrees_constrain_of_hasNaN finiteBounds notNumber inverted] at same
    cases same
  · intro regular
    rw [constrain_constrain finiteBounds (not_and.1 regular)]
    exact agrees_constrain_self finiteBounds value

theorem constrain_constrain_iff (finiteBounds : constraints.HasFiniteBounds) :
    constraints.constrain (constraints.constrain value) =
      constraints.constrain value ↔
      ¬ (value.hasNaN = true ∧ constraints.Inverted) := by
  constructor
  · intro same
    rw [← agrees_constrain_iff finiteBounds, same]
    exact agrees_constrain_self finiteBounds value
  · intro regular
    exact constrain_constrain finiteBounds (not_and.1 regular)

end Constraints

namespace Property

variable {property : Property} {value result : Value}

theorem checkRange_eq_ok_iff :
    property.checkRange value = .ok () ↔
      (property.constrain value).agrees value = true := by
  rw [checkRange]
  split <;> simp [*]

theorem coerce_eq_ok_iff :
    property.coerce value = .ok result ↔
      value.kind = property.kind ∧ property.constrain value = result := by
  rw [coerce]
  split <;> simp [*]

/-- What a property makes of a value is in range, unless the value has NaN in it
and the bounds are in the wrong order. -/
theorem checkRange_of_coerce_iff
    (finiteBounds : property.constraints.HasFiniteBounds)
    (coerced : property.coerce value = .ok result) :
    property.checkRange result = .ok () ↔
      ¬ (value.hasNaN = true ∧ property.constraints.Inverted) := by
  obtain ⟨_, rfl⟩ := coerce_eq_ok_iff.1 coerced
  rw [checkRange_eq_ok_iff]
  exact Constraints.agrees_constrain_iff finiteBounds

end Property
end MotionScene
