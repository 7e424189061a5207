/-!
# Doubles as exact numbers

A finite double is an integer times a power of two.  This module reads that
integer and power off a double, rounds them to whole numbers, and rounds exact
dyadic, rational and decimal numbers back to the nearest double, a tie going to
the even mantissa.
-/

namespace MotionScene
namespace Number

/-- A power of two. -/
def twoTo (exponent : Nat) : Nat :=
  Nat.pow 2 exponent

/-- A power of ten. -/
def tenTo (exponent : Nat) : Nat :=
  Nat.pow 10 exponent

/-- The exact value of a finite double: `mantissa * 2 ^ exponent`, with a
sign. -/
structure Exact where
  negative : Bool
  mantissa : Nat
  exponent : Int
deriving DecidableEq, Repr

/-- How a magnitude that falls between two whole numbers is rounded. -/
inductive Rounding where
  | towardZero
  | awayFromZero
  | halfAway
  | halfEven
deriving DecidableEq, Repr

namespace Rounding

/-- The quotient of two natural numbers as a whole number. -/
def divide (rounding : Rounding) (numerator denominator : Nat) : Nat :=
  let quotient := numerator / denominator
  let remainder := numerator % denominator
  match rounding with
  | towardZero => quotient
  | awayFromZero => if remainder = 0 then quotient else quotient + 1
  | halfAway => if 2 * remainder < denominator then quotient else quotient + 1
  | halfEven =>
    if 2 * remainder < denominator then quotient
    else if denominator < 2 * remainder then quotient + 1
    else if quotient % 2 = 0 then quotient else quotient + 1

end Rounding

namespace Exact

/-- The exact value of a double; infinities and NaN have none. -/
def ofFloat? (x : Float) : Option Exact :=
  let bits := x.toBits.toNat
  let negative := decide (twoTo 63 ≤ bits)
  let field : Nat := bits / twoTo 52 % 2048
  let fraction : Nat := bits % twoTo 52
  if field = 2047 then none
  else if field = 0 then some ⟨negative, fraction, -1074⟩
  else some ⟨negative, fraction + twoTo 52, (field : Int) - 1075⟩

/-- The magnitude as a fraction of natural numbers. -/
def numerator (x : Exact) : Nat :=
  x.mantissa * twoTo x.exponent.toNat

/-- The power of two below the magnitude. -/
def denominator (x : Exact) : Nat :=
  twoTo (-x.exponent).toNat

/-- The magnitude rounded to a whole number. -/
def roundMagnitude (rounding : Rounding) (x : Exact) : Nat :=
  rounding.divide x.numerator x.denominator

/-- The greatest whole number that is not above the value. -/
def floor (x : Exact) : Int :=
  if x.negative then -(x.roundMagnitude .awayFromZero : Int)
  else (x.roundMagnitude .towardZero : Int)

/-- The least whole number that is not below the value. -/
def ceil (x : Exact) : Int :=
  if x.negative then -(x.roundMagnitude .towardZero : Int)
  else (x.roundMagnitude .awayFromZero : Int)

/-- The nearest whole number, a half going away from zero. -/
def round (x : Exact) : Int :=
  if x.negative then -(x.roundMagnitude .halfAway : Int)
  else (x.roundMagnitude .halfAway : Int)

end Exact

/-- A whole number moved into the range of signed 64-bit integers. -/
def clampInt64 (n : Int) : Int64 :=
  if n < Int64.minValue.toInt then Int64.minValue
  else if Int64.maxValue.toInt < n then Int64.maxValue
  else Int64.ofInt n

/-- A double turned into a 64-bit integer by a rounding of its exact value.
Values out of range go to the nearer end of the range and NaN goes to zero. -/
def toInt64 (rounding : Exact → Int) (x : Float) : Int64 :=
  match Exact.ofFloat? x with
  | some exact => clampInt64 (rounding exact)
  | none =>
    if x.isNaN then 0
    else if x < 0.0 then Int64.minValue
    else Int64.maxValue

/-- The double nearest to `mantissa * 2 ^ exponent`. -/
def nearest (mantissa : Nat) (exponent : Int) : Float :=
  if mantissa = 0 then 0.0
  else
    let lowest : Int := max (exponent + Nat.log2 mantissa - 52) (-1074)
    let kept :=
      if lowest ≤ exponent then mantissa * twoTo (exponent - lowest).toNat
      else Rounding.divide .halfEven mantissa (twoTo (lowest - exponent).toNat)
    let carried := decide (kept = twoTo 53)
    let significand := if carried then twoTo 52 else kept
    let scale := if carried then lowest + 1 else lowest
    if 971 < scale then Float.ofBits 0x7FF0000000000000
    else if significand < twoTo 52 then Float.ofBits significand.toUInt64
    else
      Float.ofBits
        ((scale + 1075).toNat * twoTo 52 + (significand - twoTo 52)).toUInt64

/-- The double nearest to a fraction.  The quotient keeps at least 55 bits and
one more bit that tells whether anything was cut off, so rounding it again is
rounding the fraction. -/
def nearestRatio (numerator denominator : Nat) : Float :=
  if numerator = 0 then 0.0
  else
    let shift : Int := 56 + Nat.log2 denominator - Nat.log2 numerator
    let top := numerator * twoTo shift.toNat
    let bottom := denominator * twoTo (-shift).toNat
    let cut := if top % bottom = 0 then 0 else 1
    nearest (2 * (top / bottom) + cut) (-shift - 1)

/-- The double nearest to a whole number. -/
def ofInt (n : Int) : Float :=
  if n < 0 then -(nearest n.natAbs 0) else nearest n.natAbs 0

/-- The double nearest to `coefficient * 10 ^ exponent`, infinite beyond the
range of doubles.  Decimals far outside the range are settled by their digit
count alone. -/
def ofDecimal (coefficient : Nat) (exponent : Int) : Float :=
  if coefficient = 0 then 0.0
  else
    let digits : Int := Nat.log2 coefficient * 30103 / 100000
    if 400 < digits + exponent then Float.ofBits 0x7FF0000000000000
    else if digits + exponent < -400 then 0.0
    else
      nearestRatio (coefficient * tenTo exponent.toNat)
        (tenTo (-exponent).toNat)

end Number
end MotionScene
