import Mathlib.Tactic.Ring
import MotionScene.Number.Decimal
import MotionScene.Proofs.Number.Exact

/-!
# Shortest decimals

The shortest decimal of a positive double lies in the interval of numbers that
round to the double.  These intervals follow each other in the order of the
doubles and have no point in common, so different magnitudes have different
shortest decimals.
-/

namespace MotionScene
namespace Number

namespace Exact

/-- How far the numbers that round to a double reach below it. -/
def gap (x : Exact) : ℚ :=
  (if x.mantissa = 2 ^ 52 ∧ -1074 < x.exponent then 1 / 4 else 1 / 2) *
    2 ^ x.exponent

/-- The lower end of the interval of numbers that round to a double. -/
def lowerEnd (x : Exact) : ℚ :=
  x.magnitude - x.gap

/-- The upper end of that interval. -/
def upperEnd (x : Exact) : ℚ :=
  x.magnitude + 1 / 2 * 2 ^ x.exponent

variable {x y : Exact}

theorem unit_pos (x : Exact) : (0 : ℚ) < 2 ^ x.exponent :=
  zpow_pos two_pos x.exponent

theorem unit_eq_div (x : Exact) :
    (2 : ℚ) ^ x.exponent = twoTo x.exponent.toNat / x.denominator := by
  rw [zpow_eq_div, denominator, twoTo_eq, twoTo_eq]
  push_cast
  rfl

theorem gap_le (x : Exact) : x.gap ≤ 1 / 2 * 2 ^ x.exponent := by
  have unit := x.unit_pos
  unfold gap
  split <;> linarith

theorem gap_pos (x : Exact) : 0 < x.gap := by
  have unit := x.unit_pos
  unfold gap
  split <;> linarith

/-- One double comes before another in the order of their magnitudes. -/
def Precedes (x y : Exact) : Prop :=
  x.exponent < y.exponent ∨ x.exponent = y.exponent ∧ x.mantissa < y.mantissa

theorem Normal.mantissa_le (normal : x.Normal) :
    (x.mantissa : ℚ) ≤ 2 ^ 53 - 1 := by
  have whole : x.mantissa + 1 ≤ 2 ^ 53 := normal.small
  have cast : (x.mantissa : ℚ) + 1 ≤ 2 ^ 53 := by exact_mod_cast whole
  linarith

theorem Normal.le_magnitude
    (normal : x.Normal)
    (positive : 0 < x.mantissa) :
    (2 : ℚ) ^ (-1074 : Int) ≤ x.magnitude := by
  have unit := x.unit_pos
  have cast : (1 : ℚ) ≤ x.mantissa := by exact_mod_cast positive
  have scaled := mul_le_mul_of_nonneg_right cast unit.le
  have lowest : (2 : ℚ) ^ (-1074 : Int) ≤ 2 ^ x.exponent :=
    zpow_le_zpow_right₀ one_le_two normal.lowest
  rw [magnitude]
  linarith

theorem Normal.magnitude_lt (normal : x.Normal) :
    x.magnitude < 2 ^ (1024 : Int) := by
  have unit := x.unit_pos
  have cast : (x.mantissa : ℚ) < 2 ^ (53 : Int) := by
    exact_mod_cast normal.small
  have highest : (2 : ℚ) ^ x.exponent ≤ 2 ^ (971 : Int) :=
    zpow_le_zpow_right₀ one_le_two normal.highest
  have split : (2 : ℚ) ^ (1024 : Int) = 2 ^ (53 : Int) * 2 ^ (971 : Int) := by
    rw [← zpow_add₀ two_ne_zero]
    norm_num
  rw [magnitude, split]
  exact mul_lt_mul cast highest unit (by positivity)

/-- Where the exponent is not the lowest, the interval of a double starts no
lower than that of the double with the least mantissa. -/
theorem Normal.le_lowerEnd
    (normal : y.Normal)
    (above : -1074 < y.exponent) :
    (2 ^ 52 - 1 / 4) * 2 ^ y.exponent ≤ y.lowerEnd := by
  have unit := y.unit_pos
  have leading : 2 ^ 52 ≤ y.mantissa := normal.leading.resolve_right (by omega)
  rw [lowerEnd, magnitude, gap]
  by_cases least : y.mantissa = 2 ^ 52
  · rw [if_pos ⟨least, above⟩, least]
    push_cast
    linarith
  · have next : 2 ^ 52 + 1 ≤ y.mantissa := by omega
    have cast : (2 : ℚ) ^ 52 + 1 ≤ y.mantissa := by exact_mod_cast next
    rw [if_neg fun both => least both.1]
    have bound := mul_le_mul_of_nonneg_right cast unit.le
    linarith

/-- The interval of a double ends where that of a later one starts or before,
and they share no end that belongs to both. -/
theorem Precedes.upperEnd_le_lowerEnd
    (precedes : x.Precedes y)
    (normal : x.Normal)
    (later : y.Normal) :
    x.upperEnd ≤ y.lowerEnd ∧
      (x.mantissa % 2 = 0 → y.mantissa % 2 = 0 → x.upperEnd < y.lowerEnd) := by
  have unit := x.unit_pos
  rcases precedes with lower | ⟨same, smaller⟩
  · -- Across a power of two, the upper end is at most the midpoint below the
    -- least mantissa.
    have half : (2 : ℚ) ^ x.exponent ≤ 1 / 2 * 2 ^ y.exponent := by
      have step : (2 : ℚ) ^ x.exponent ≤ 2 ^ (y.exponent - 1) :=
        zpow_le_zpow_right₀ one_le_two (by omega)
      rw [zpow_sub_one₀ two_ne_zero] at step
      linarith
    have start := later.le_lowerEnd (by have := normal.lowest; omega)
    have scaled := mul_le_mul_of_nonneg_right normal.mantissa_le unit.le
    rw [upperEnd, magnitude]
    constructor
    · linarith
    · intro even _
      have whole : x.mantissa + 2 ≤ 2 ^ 53 := by have := normal.small; omega
      have cast : (x.mantissa : ℚ) + 2 ≤ 2 ^ 53 := by exact_mod_cast whole
      have bound := mul_le_mul_of_nonneg_right cast unit.le
      linarith
  · have reach := y.gap_le
    rw [lowerEnd, upperEnd, magnitude, magnitude]
    rw [← same] at reach ⊢
    constructor
    · have cast : (x.mantissa : ℚ) + 1 ≤ y.mantissa := by exact_mod_cast smaller
      have bound := mul_le_mul_of_nonneg_right cast unit.le
      linarith
    · intro even evenLater
      have whole : x.mantissa + 2 ≤ y.mantissa := by omega
      have cast : (x.mantissa : ℚ) + 2 ≤ y.mantissa := by exact_mod_cast whole
      have bound := mul_le_mul_of_nonneg_right cast unit.le
      linarith

theorem lowerEnd_pos (positive : 0 < x.mantissa) : 0 < x.lowerEnd := by
  have unit := x.unit_pos
  have reach := x.gap_le
  have cast : (1 : ℚ) ≤ x.mantissa := by exact_mod_cast positive
  have bound := mul_le_mul_of_nonneg_right cast unit.le
  rw [lowerEnd, magnitude]
  linarith

end Exact

namespace Decimal

/-- The number a decimal stands for. -/
def value (d : Decimal) : ℚ :=
  d.coefficient * 10 ^ d.exponent

theorem value_eq_div (d : Decimal) :
    d.value =
      d.coefficient * tenTo d.exponent.toNat / tenTo (-d.exponent).toNat := by
  rw [value, zpow_eq_div, tenTo_eq, tenTo_eq]
  push_cast
  rw [mul_div_assoc]

theorem value_trim (fuel : Nat) (d : Decimal) :
    (trim fuel d).value = d.value := by
  induction fuel generalizing d with
  | zero => rfl
  | succ fuel inductionHypothesis =>
      rw [trim]
      split
      · next trailing =>
          have whole : d.coefficient / 10 * 10 = d.coefficient := by omega
          have cast : ((d.coefficient / 10 : Nat) : ℚ) * 10 =
              d.coefficient := by exact_mod_cast whole
          rw [inductionHypothesis]
          simp only [value]
          rw [zpow_add_one₀ (by norm_num), ← cast]
          ring
      · rfl

variable {x y : Exact} {tie : Tie} {d : Decimal}

theorem lower_basin (positive : 0 < x.mantissa) :
    ((basin x).lower : ℚ) = 4 * x.denominator * x.lowerEnd := by
  have denominator : (x.denominator : ℚ) ≠ 0 := by
    exact_mod_cast x.denominator_pos.ne'
  have unit : twoTo x.exponent.toNat ≤ x.numerator :=
    Nat.le_mul_of_pos_left _ positive
  rw [Exact.lowerEnd, Exact.gap, Exact.unit_eq_div, Exact.magnitude_eq_div]
  simp only [basin, twoTo_eq 52]
  split
  · rw [Nat.cast_sub (by omega)]
    push_cast
    field_simp
  · rw [Nat.cast_sub (by omega)]
    push_cast
    field_simp
    ring

theorem upper_basin (x : Exact) :
    ((basin x).upper : ℚ) = 4 * x.denominator * x.upperEnd := by
  have denominator : (x.denominator : ℚ) ≠ 0 := by
    exact_mod_cast x.denominator_pos.ne'
  rw [Exact.upperEnd, Exact.unit_eq_div, Exact.magnitude_eq_div]
  simp only [basin]
  push_cast
  field_simp
  ring

/-- The basin holds the numbers between the two ends, which belong to it for an
even mantissa. -/
theorem inBasin_iff (positive : 0 < x.mantissa) :
    inBasin x d = true ↔
      if x.mantissa % 2 = 0 then x.lowerEnd ≤ d.value ∧ d.value ≤ x.upperEnd
      else x.lowerEnd < d.value ∧ d.value < x.upperEnd := by
  -- All sides are compared over the common denominator of the value and the
  -- ends.
  have denominator : (0 : ℚ) < x.denominator := by
    exact_mod_cast x.denominator_pos
  have scale : (0 : ℚ) < tenTo (-d.exponent).toNat := by
    rw [tenTo_eq]
    positivity
  have common : (0 : ℚ) < 4 * x.denominator * tenTo (-d.exponent).toNat := by
    positivity
  have value :
      ((4 * x.denominator * d.coefficient * tenTo d.exponent.toNat : Nat) : ℚ) =
      d.value * (4 * x.denominator * tenTo (-d.exponent).toNat) := by
    rw [value_eq_div]
    push_cast
    field_simp
  have lower : (((basin x).lower * tenTo (-d.exponent).toNat : Nat) : ℚ) =
      x.lowerEnd * (4 * x.denominator * tenTo (-d.exponent).toNat) := by
    push_cast
    rw [lower_basin positive]
    ring
  have upper : (((basin x).upper * tenTo (-d.exponent).toNat : Nat) : ℚ) =
      x.upperEnd * (4 * x.denominator * tenTo (-d.exponent).toNat) := by
    push_cast
    rw [upper_basin]
    ring
  have closed : (basin x).closed = decide (x.mantissa % 2 = 0) := rfl
  unfold inBasin
  simp only [closed]
  by_cases even : x.mantissa % 2 = 0
  · simp only [even, decide_true, if_true, decide_eq_true_eq]
    rw [← Nat.cast_le (α := ℚ), ← Nat.cast_le (α := ℚ), value, lower, upper,
      mul_le_mul_iff_of_pos_right common, mul_le_mul_iff_of_pos_right common]
  · simp only [even, decide_false, if_false, decide_eq_true_eq,
      Bool.false_eq_true]
    rw [← Nat.cast_lt (α := ℚ), ← Nat.cast_lt (α := ℚ), value, lower, upper,
      mul_lt_mul_iff_of_pos_right common, mul_lt_mul_iff_of_pos_right common]

theorem inBasin_of_lt
    (positive : 0 < x.mantissa)
    (above : x.lowerEnd < d.value)
    (below : d.value < x.upperEnd) :
    inBasin x d = true := by
  rw [inBasin_iff positive]
  split
  · exact ⟨above.le, below.le⟩
  · exact ⟨above, below⟩

/-! ## Grids -/

theorem inBasin_of_onGrid?
    {exponent : Int}
    (found : onGrid? tie x exponent = some d) :
    inBasin x d = true := by
  unfold onGrid? at found
  simp only at found
  split at found
  · next below above =>
      cases found
      split
      · exact below
      · exact above
  · next below _ =>
      cases found
      exact below
  · next _ above =>
      cases found
      exact above
  · cases found

/-- The number of the grid point at or below the magnitude of a double. -/
def gridIndex (x : Exact) (exponent : Int) : Nat :=
  x.numerator * tenTo (-exponent).toNat / (x.denominator * tenTo exponent.toNat)

/-- The magnitude of a double lies between two neighbouring points of every
grid. -/
theorem grid_around (x : Exact) (exponent : Int) :
    gridIndex x exponent * (10 : ℚ) ^ exponent ≤ x.magnitude ∧
      x.magnitude < (gridIndex x exponent + 1) * (10 : ℚ) ^ exponent := by
  have denominator : (0 : ℚ) < x.denominator := by
    exact_mod_cast x.denominator_pos
  have bottom : 0 < x.denominator * tenTo exponent.toNat :=
    Nat.mul_pos x.denominator_pos (Nat.pow_pos (by decide))
  have bottomCast : (0 : ℚ) < (x.denominator * tenTo exponent.toNat : Nat) := by
    exact_mod_cast bottom
  have power : (0 : ℚ) < 10 ^ exponent := zpow_pos (by norm_num) exponent
  have top :
      ((x.numerator * tenTo (-exponent).toNat : Nat) : ℚ) * 10 ^ exponent =
      x.magnitude * (x.denominator * tenTo exponent.toNat : Nat) := by
    rw [zpow_eq_div, Exact.magnitude_eq_div, tenTo_eq, tenTo_eq]
    push_cast
    field_simp
  have floor : gridIndex x exponent * (x.denominator * tenTo exponent.toNat) ≤
      x.numerator * tenTo (-exponent).toNat :=
    Nat.div_mul_le_self _ _
  have next : x.numerator * tenTo (-exponent).toNat <
      (gridIndex x exponent + 1) * (x.denominator * tenTo exponent.toNat) := by
    rw [Nat.mul_comm (gridIndex x exponent + 1)]
    exact Nat.lt_mul_div_succ _ bottom
  rw [← Nat.cast_le (α := ℚ), Nat.cast_mul] at floor
  rw [← Nat.cast_lt (α := ℚ), Nat.cast_mul (_ + 1), Nat.cast_succ] at next
  constructor
  · refine le_of_mul_le_mul_right ?_ bottomCast
    rw [← top]
    calc gridIndex x exponent * (10 : ℚ) ^ exponent *
      (x.denominator * tenTo exponent.toNat : Nat)
        = gridIndex x exponent * (x.denominator * tenTo exponent.toNat : Nat) *
          10 ^ exponent := by ring
      _ ≤ _ := mul_le_mul_of_nonneg_right floor power.le
  · refine lt_of_mul_lt_mul_right ?_ bottomCast.le
    rw [← top]
    calc ((x.numerator * tenTo (-exponent).toNat : Nat) : ℚ) * 10 ^ exponent
        < (gridIndex x exponent + 1) *
          (x.denominator * tenTo exponent.toNat : Nat) * 10 ^ exponent :=
          mul_lt_mul_of_pos_right next power
      _ = _ := by ring

/-- A grid whose points lie close enough has one in the basin. -/
theorem exists_onGrid?
    {exponent : Int}
    (positive : 0 < x.mantissa)
    (fine : (10 : ℚ) ^ exponent < 2 * x.gap) :
    ∃ d, onGrid? tie x exponent = some d := by
  obtain ⟨floor, next⟩ := grid_around x exponent
  have reach := x.gap_le
  have room := x.gap_pos
  -- The nearer of the two neighbours is at most half a step away.
  have inside : inBasin x ⟨gridIndex x exponent, exponent⟩ = true ∨
      inBasin x ⟨gridIndex x exponent + 1, exponent⟩ = true := by
    by_cases near : x.magnitude - gridIndex x exponent * 10 ^ exponent ≤ 1 / 2 *
      10 ^ exponent
    · refine Or.inl (inBasin_of_lt positive ?_ ?_)
      · simp only [Exact.lowerEnd, value]
        linarith
      · simp only [Exact.upperEnd, value]
        linarith
    · refine Or.inr (inBasin_of_lt positive ?_ ?_)
      · simp only [Exact.lowerEnd, value]
        push_cast
        linarith
      · simp only [Exact.upperEnd, value]
        push_cast
        linarith
  unfold onGrid?
  simp only
  rcases inside with below | above
  · rw [gridIndex] at below
    rw [below]
    cases inBasin x _ with
    | true => exact ⟨_, rfl⟩
    | false => exact ⟨_, rfl⟩
  · rw [gridIndex] at above
    rw [above]
    cases inBasin x _ with
    | true => exact ⟨_, rfl⟩
    | false => exact ⟨_, rfl⟩

/-- The search ends in the basin when its last grid is fine enough. -/
theorem inBasin_shortestFrom
    {fuel : Nat}
    {exponent : Int}
    (positive : 0 < x.mantissa)
    (fine : (10 : ℚ) ^ (exponent - fuel) < 2 * x.gap) :
    inBasin x (shortestFrom tie x (fuel + 1) exponent) = true := by
  induction fuel generalizing exponent with
  | zero =>
      obtain ⟨d, found⟩ : ∃ d, onGrid? tie x exponent = some d :=
        exists_onGrid? positive (by simpa using fine)
      rw [shortestFrom, found]
      exact inBasin_of_onGrid? found
  | succ fuel inductionHypothesis =>
      rw [shortestFrom]
      cases found : onGrid? tie x exponent with
      | some d => exact inBasin_of_onGrid? found
      | none =>
          refine inductionHypothesis ?_
          have same : exponent - 1 - (fuel : Int) =
              exponent - (fuel + 1 : Nat) := by omega
          rwa [same]

/-! ## The first grid -/

theorem belowPower_iff
    {numerator denominator : Nat}
    (positive : 0 < denominator)
    (power : Int) :
    belowPower numerator denominator power = true ↔
      (numerator : ℚ) / denominator < 10 ^ power := by
  have bottom : (0 : ℚ) < denominator := by exact_mod_cast positive
  have scale : (0 : ℚ) < 10 ^ (-power).toNat := by positivity
  rw [belowPower, decide_eq_true_eq, tenTo_eq, tenTo_eq, zpow_eq_div,
    div_lt_div_iff₀ bottom scale, mul_comm denominator]
  norm_cast

/-- The binary length of a fraction, as it is used to guess its decimal
length. -/
def binaryLength (numerator denominator : Nat) : Int :=
  Nat.log2 numerator - Nat.log2 denominator - 1

theorem zpow_binaryLength_le
    {numerator denominator : Nat}
    (positive : 0 < numerator)
    (positiveBelow : 0 < denominator) :
    (2 : ℚ) ^ binaryLength numerator denominator ≤ (numerator : ℚ) /
      denominator := by
  have bottom : (0 : ℚ) < denominator := by exact_mod_cast positiveBelow
  have top : (2 : ℚ) ^ Nat.log2 numerator ≤ numerator := by
    exact_mod_cast Nat.log2_self_le positive.ne'
  have below : (denominator : ℚ) ≤ 2 ^ (Nat.log2 denominator + 1) := by
    exact_mod_cast Nat.lt_log2_self.le
  rw [binaryLength, sub_sub, zpow_sub₀ two_ne_zero, le_div_iff₀ bottom,
    div_mul_eq_mul_div, div_le_iff₀ (zpow_pos two_pos _)]
  exact_mod_cast mul_le_mul top below bottom.le (by positivity)

theorem lt_zpow_binaryLength
    (numerator : Nat)
    {denominator : Nat}
    (positiveBelow : 0 < denominator) :
    (numerator : ℚ) / denominator < 2 ^
      (binaryLength numerator denominator + 2) := by
  have bottom : (0 : ℚ) < denominator := by exact_mod_cast positiveBelow
  have top : (numerator : ℚ) < 2 ^ (Nat.log2 numerator + 1) := by
    exact_mod_cast Nat.lt_log2_self
  have below : (2 : ℚ) ^ Nat.log2 denominator ≤ denominator := by
    exact_mod_cast Nat.log2_self_le positiveBelow.ne'
  have length : binaryLength numerator denominator + 2 =
      ((Nat.log2 numerator + 1 : Nat) : Int) -
        (Nat.log2 denominator : Nat) := by
    rw [binaryLength]
    omega
  rw [length, zpow_sub₀ two_ne_zero, zpow_natCast, zpow_natCast,
    div_lt_div_iff₀ bottom (by positivity)]
  exact mul_lt_mul top below (by positivity) (by positivity)

/-- The decimal guess is at most one power too high, for all lengths that
doubles have. -/
theorem zpow_guess_le
    {length : Int}
    (least : -1100 < length)
    (greatest : length < 1100) :
    (10 : ℚ) ^ (length * 30103 / 100000 - 1) ≤ 2 ^ length := by
  have up : ∀ n < 1100, 10 ^ (30103 * n / 100000) ≤ 10 * 2 ^ n := by
    decide +kernel
  have down : ∀ n < 1100, 2 ^ n ≤ 10 ^ ((30103 * n + 99999) / 100000 + 1) := by
    decide +kernel
  rcases Int.eq_nat_or_neg length with ⟨n, rfl | rfl⟩
  · have guess :
        (n : Int) * 30103 / 100000 = (30103 * n / 100000 : Nat) := by omega
    have bound : (10 : ℚ) ^ (30103 * n / 100000) ≤ 10 * 2 ^ n := by
      exact_mod_cast up n (by omega)
    rw [guess, zpow_sub_one₀ (by norm_num), zpow_natCast, zpow_natCast]
    linarith
  · have guess : -(n : Int) * 30103 / 100000 - 1 =
        -((30103 * n + 99999) / 100000 + 1 : Nat) := by omega
    have bound : (2 : ℚ) ^ n ≤ 10 ^ ((30103 * n + 99999) / 100000 + 1) := by
      exact_mod_cast down n (by omega)
    rw [guess, zpow_neg, zpow_neg, zpow_natCast, zpow_natCast]
    exact inv_anti₀ (by positivity) bound

/-- The power one below the one found is not above the magnitude. -/
theorem zpow_powerAbove_le
    (normal : x.Normal)
    (positive : 0 < x.mantissa) :
    (10 : ℚ) ^ (powerAbove x.numerator x.denominator - 1) ≤ x.magnitude := by
  have top : 0 < x.numerator := Nat.mul_pos positive (Nat.pow_pos (by decide))
  have lower := zpow_binaryLength_le top x.denominator_pos
  have upper := lt_zpow_binaryLength x.numerator x.denominator_pos
  rw [← Exact.magnitude_eq_div] at lower upper
  have least : -1074 < binaryLength x.numerator x.denominator + 2 :=
    (zpow_lt_zpow_iff_right₀ one_lt_two).1
      ((normal.le_magnitude positive).trans_lt upper)
  have greatest : binaryLength x.numerator x.denominator < 1024 :=
    (zpow_lt_zpow_iff_right₀ one_lt_two).1 (lower.trans_lt normal.magnitude_lt)
  have guess := (zpow_guess_le (by omega) (by omega)).trans lower
  unfold powerAbove
  simp only
  split
  · exact guess
  · next above =>
      rw [belowPower_iff x.denominator_pos, not_lt, ← Exact.magnitude_eq_div]
        at above
      split
      · simpa using above
      · next above =>
          rw [belowPower_iff x.denominator_pos,
            not_lt, ← Exact.magnitude_eq_div] at above
          simpa [add_sub_assoc] using above

/-- Seventeen digits are enough: the last grid that is tried is fine enough. -/
theorem zpow_lt_gap
    (normal : x.Normal)
    {power : Int}
    (within : (10 : ℚ) ^ (power - 1) ≤ x.magnitude) :
    (10 : ℚ) ^ (power - 1 - (16 : Nat)) < 2 * x.gap := by
  have unit := x.unit_pos
  rw [zpow_sub₀ (by norm_num), zpow_natCast, div_lt_iff₀ (by positivity)]
  rw [Exact.magnitude] at within
  rw [Exact.gap]
  split
  · next least =>
      rw [least.1] at within
      push_cast at within
      linarith
  · have bound := mul_le_mul_of_nonneg_right normal.mantissa_le unit.le
    linarith

/-! ## The shortest decimal -/

theorem shortest_of_pos (positive : 0 < x.mantissa) :
    shortest tie x =
      trim 20
        (shortestFrom tie x 17 (powerAbove x.numerator x.denominator - 1)) :=
  if_neg positive.ne'

theorem value_shortest_zero (zero : x.mantissa = 0) :
    (shortest tie x).value = 0 := by
  rw [shortest, if_pos zero, value]
  simp

/-- The shortest decimal of a positive double lies between the ends of its
interval, and at an end only if the mantissa is even. -/
theorem value_shortest_bounds
    (tie : Tie)
    (normal : x.Normal)
    (positive : 0 < x.mantissa) :
    x.lowerEnd ≤ (shortest tie x).value ∧ (shortest tie x).value ≤ x.upperEnd ∧
      (x.mantissa % 2 ≠ 0 →
        x.lowerEnd < (shortest tie x).value ∧
          (shortest tie x).value < x.upperEnd) := by
  have fine := zpow_lt_gap normal (zpow_powerAbove_le normal positive)
  have inside : inBasin x
        (shortestFrom tie x 17 (powerAbove x.numerator x.denominator - 1)) =
          true :=
    inBasin_shortestFrom positive fine
  rw [inBasin_iff positive] at inside
  rw [shortest_of_pos positive, value_trim]
  by_cases even : x.mantissa % 2 = 0
  · rw [if_pos even] at inside
    exact ⟨inside.1, inside.2, fun odd => absurd even odd⟩
  · rw [if_neg even] at inside
    exact ⟨inside.1.le, inside.2.le, fun _ => inside⟩

theorem value_shortest_lt
    (precedes : x.Precedes y)
    (normal : x.Normal)
    (later : y.Normal)
    (positive : 0 < x.mantissa)
    (positiveLater : 0 < y.mantissa) :
    (shortest tie x).value < (shortest tie y).value := by
  obtain ⟨_, upper, upperStrict⟩ := value_shortest_bounds tie normal positive
  obtain ⟨lower, _, lowerStrict⟩ :=
    value_shortest_bounds tie later positiveLater
  obtain ⟨apart, apartStrict⟩ := precedes.upperEnd_le_lowerEnd normal later
  by_cases even : x.mantissa % 2 = 0
  · by_cases evenLater : y.mantissa % 2 = 0
    · have strict := apartStrict even evenLater
      linarith
    · have strict := (lowerStrict evenLater).1
      linarith
  · have strict := (upperStrict even).2
    linarith

theorem value_shortest_pos
    (normal : x.Normal)
    (positive : 0 < x.mantissa) :
    0 < (shortest tie x).value :=
  (Exact.lowerEnd_pos positive).trans_le
    (value_shortest_bounds tie normal positive).1

theorem mantissa_eq_zero_iff (normal : x.Normal) :
    x.mantissa = 0 ↔ (shortest tie x).value = 0 := by
  constructor
  · exact value_shortest_zero
  · intro zero
    by_contra nonzero
    exact (value_shortest_pos normal (Nat.pos_of_ne_zero nonzero)).ne' zero

/-- Doubles whose shortest decimals have one value have the same magnitude. -/
theorem eq_of_value_shortest
    (normal : x.Normal)
    (other : y.Normal)
    (same : (shortest tie x).value = (shortest tie y).value) :
    x.mantissa = y.mantissa ∧ x.exponent = y.exponent := by
  by_cases zero : x.mantissa = 0
  · have zeroOther : y.mantissa = 0 := by
      rwa [mantissa_eq_zero_iff other, ← same, ← mantissa_eq_zero_iff normal]
    have lowest := normal.leading.resolve_left (by omega)
    have lowestOther := other.leading.resolve_left (by omega)
    exact ⟨zero.trans zeroOther.symm, lowest.trans lowestOther.symm⟩
  · have nonzero : y.mantissa ≠ 0 := by
      rwa [Ne,
        mantissa_eq_zero_iff other, ← same, ← mantissa_eq_zero_iff normal]
    have positive := Nat.pos_of_ne_zero zero
    have positiveOther := Nat.pos_of_ne_zero nonzero
    by_contra different
    have ordered : x.Precedes y ∨ y.Precedes x := by
      unfold Exact.Precedes
      omega
    rcases ordered with precedes | follows
    · exact (value_shortest_lt precedes normal other positive positiveOther).ne
        same
    · exact (value_shortest_lt follows other normal positiveOther positive).ne
        same.symm

end Decimal
end Number
end MotionScene
