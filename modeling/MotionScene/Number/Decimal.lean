import MotionScene.Number.Exact

/-!
# Decimals of a double

The shortest decimal of a double has the fewest digits among the decimals that
round to it, and is the nearest of those.  The digit counts are tried in turn on
the exact value.
-/

namespace MotionScene
namespace Number

/-- The number `coefficient * 10 ^ exponent`. -/
structure Decimal where
  coefficient : Nat
  exponent : Int
deriving DecidableEq, Repr

/-- Which of two equally near decimals is taken. -/
inductive Tie where
  | toEven
  | up
deriving DecidableEq, Repr

namespace Decimal

/-- The decimal digits of the coefficient. -/
def digits (d : Decimal) : List Char :=
  Nat.toDigits 10 d.coefficient

/-- The place of the decimal point, counted from before the first digit. -/
def point (d : Decimal) : Int :=
  d.exponent + d.digits.length

/-- Trailing zeros of the coefficient moved into the exponent, at most `fuel` of
them. -/
def trim : Nat → Decimal → Decimal
  | 0, d => d
  | fuel + 1, d =>
    if d.coefficient ≠ 0 ∧ d.coefficient % 10 = 0 then
      trim fuel ⟨d.coefficient / 10, d.exponent + 1⟩
    else d

/-- Whether a fraction lies below a power of ten. -/
def belowPower (numerator denominator : Nat) (power : Int) : Bool :=
  decide (numerator * tenTo (-power).toNat < denominator * tenTo power.toNat)

/-- The least power of ten above a positive fraction.  The binary lengths give
it up to two steps. -/
def powerAbove (numerator denominator : Nat) : Int :=
  let length : Int := Nat.log2 numerator - Nat.log2 denominator - 1
  let guess := length * 30103 / 100000
  if belowPower numerator denominator guess then guess
  else if belowPower numerator denominator (guess + 1) then guess + 1
  else guess + 2

/-- The interval of numbers that round to a double, over the common denominator
`4 * denominator`: its ends, and whether they belong to it. -/
structure Basin where
  lower : Nat
  upper : Nat
  closed : Bool

/-- The basin of a positive double.  Below a power of two the doubles lie twice
as close. -/
def basin (x : Exact) : Basin :=
  let unit := twoTo x.exponent.toNat
  let step :=
    if x.mantissa = twoTo 52 ∧ -1074 < x.exponent then unit else 2 * unit
  { lower := 4 * x.numerator - step
    upper := 4 * x.numerator + 2 * unit
    closed := x.mantissa % 2 = 0 }

/-- Whether a decimal lies in the basin. -/
def inBasin (x : Exact) (d : Decimal) : Bool :=
  let span := basin x
  let value := 4 * x.denominator * d.coefficient * tenTo d.exponent.toNat
  let scale := tenTo (-d.exponent).toNat
  if span.closed then
    decide (span.lower * scale ≤ value ∧ value ≤ span.upper * scale)
  else decide (span.lower * scale < value ∧ value < span.upper * scale)

/-- The decimal of a positive double on the grid `10 ^ exponent`, if the grid
has a point in its basin: the nearer of the two grid points around the value. -/
def onGrid? (tie : Tie) (x : Exact) (exponent : Int) : Option Decimal :=
  let top := x.numerator * tenTo (-exponent).toNat
  let bottom := x.denominator * tenTo exponent.toNat
  let coefficient := top / bottom
  let remainder := top % bottom
  let below : Decimal := ⟨coefficient, exponent⟩
  let above : Decimal := ⟨coefficient + 1, exponent⟩
  let preferBelow :=
    decide (2 * remainder < bottom) ||
      (decide (2 * remainder = bottom) && tie == .toEven &&
        decide (coefficient % 2 = 0))
  match inBasin x below, inBasin x above with
  | true, true => some (if preferBelow then below else above)
  | true, false => some below
  | false, true => some above
  | false, false => none

/-- The shortest decimal that uses at most `fuel` more digits than already
tried. -/
def shortestFrom (tie : Tie) (x : Exact) : Nat → Int → Decimal
  | 0, exponent =>
    ⟨x.numerator * tenTo (-exponent).toNat / x.denominator, exponent⟩
  | fuel + 1, exponent =>
    match onGrid? tie x exponent with
    | some d => d
    | none => shortestFrom tie x fuel (exponent - 1)

/-- The shortest decimal of the magnitude of a double; zero has the digit
`0`. -/
def shortest (tie : Tie) (x : Exact) : Decimal :=
  if x.mantissa = 0 then ⟨0, 0⟩
  else
    trim 20 (shortestFrom tie x 17 (powerAbove x.numerator x.denominator - 1))

/-- The magnitude of a double rounded to the given number of significant digits,
a half going to the even digit. -/
def rounded (count : Nat) (x : Exact) : Decimal :=
  if x.mantissa = 0 then ⟨0, 0⟩
  else
    let exponent := powerAbove x.numerator x.denominator - count
    let top := x.numerator * tenTo (-exponent).toNat
    let bottom := x.denominator * tenTo exponent.toNat
    let coefficient := Rounding.divide .halfEven top bottom
    if coefficient = tenTo count then ⟨tenTo (count - 1), exponent + 1⟩
    else ⟨coefficient, exponent⟩

end Decimal

end Number
end MotionScene
