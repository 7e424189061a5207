import MotionScene.Number.Exact

/-!
# Sine, cosine and tangent

Angles are reduced by quarter turns and summed as power series in binary fixed
point.  The working precision is far beyond that of a double, so that the final
rounding gives the double nearest to the true value.
-/

namespace MotionScene
namespace Number

/-- Binary digits kept after the point while a series is summed. -/
def workingBits : Nat := 256

/-- The alternating series of the arctangent of `1 / divisor`, from the term
with the given odd number on; `power` is the scaled power of `1 / divisor` of
that term. -/
def arctangentSeries (divisor : Nat) : Nat → Nat → Int → Int
  | 0, _, _ => 0
  | fuel + 1, odd, power =>
    power / odd -
      arctangentSeries divisor fuel (odd + 2) (power / (divisor * divisor))

/-- The arctangent of `1 / divisor`, scaled by `2 ^ bits`. -/
def arctangentInverse (divisor bits : Nat) : Int :=
  arctangentSeries divisor (bits / 4 + 2) 1 ((twoTo bits / divisor : Nat) : Int)

/-- Half of the circle constant, scaled by `2 ^ bits`. -/
def halfPi (bits : Nat) : Int :=
  let guard := bits + 32
  (8 * arctangentInverse 5 guard - 2 * arctangentInverse 239 guard) /
    (twoTo 32 : Int)

/-- The power series shared by sine and cosine: each term is the one before it
times `-angle² / (count * (count + 1))`. -/
def circularSeries (square : Int) : Nat → Nat → Int → Int
  | 0, _, _ => 0
  | fuel + 1, count, term =>
    term + circularSeries square fuel (count + 2)
      (-(term * square) / (twoTo workingBits : Int) /
        ((count * (count + 1) : Nat) : Int))

/-- The sine of a small fixed-point angle. -/
def fixedSine (angle : Int) : Int :=
  circularSeries (angle * angle / (twoTo workingBits : Int)) 64 2 angle

/-- The cosine of a small fixed-point angle. -/
def fixedCosine (angle : Int) : Int :=
  circularSeries (angle * angle / (twoTo workingBits : Int)) 64 1
    (twoTo workingBits : Int)

/-- A magnitude split into quarter turns and a fixed-point rest of at most an
eighth of a turn to either side. -/
def reduceAngle (x : Exact) : Nat × Int :=
  let extra := (x.exponent + 64).toNat
  let bits := workingBits + extra
  let scaled : Int :=
    if 0 ≤ x.exponent + bits then
      (x.mantissa * twoTo (x.exponent + bits).toNat : Nat)
    else (x.mantissa / twoTo (-(x.exponent + bits)).toNat : Nat)
  let quarter := halfPi bits
  let turns := (2 * scaled + quarter) / (2 * quarter)
  (turns.toNat % 4, (scaled - turns * quarter) / (twoTo extra : Int))

/-- The double nearest to a fixed-point number. -/
def ofFixed (n : Int) : Float :=
  if n < 0 then -(nearest n.natAbs (-workingBits))
  else nearest n.natAbs (-workingBits)

/-- Whether an angle is so small that sine and tangent round to the angle itself
and cosine rounds to one. -/
def isTinyAngle (x : Exact) : Bool :=
  decide (x.mantissa = 0 ∨ x.exponent + Nat.log2 x.mantissa < -27)

/-- Sine and cosine of a magnitude, in fixed point. -/
def fixedSineCosine (x : Exact) : Int × Int :=
  let (turns, rest) := reduceAngle x
  let sine := fixedSine rest
  let cosine := fixedCosine rest
  match turns with
  | 0 => (sine, cosine)
  | 1 => (cosine, -sine)
  | 2 => (-sine, -cosine)
  | _ => (-cosine, sine)

/-- The double nearest to the sine of an angle in radians. -/
def sine (x : Float) : Float :=
  match Exact.ofFloat? x with
  | none => Float.ofBits 0x7FF8000000000000
  | some exact =>
    if isTinyAngle exact then x
    else
      let value := ofFixed (fixedSineCosine exact).1
      if exact.negative then -value else value

/-- The double nearest to the cosine of an angle in radians. -/
def cosine (x : Float) : Float :=
  match Exact.ofFloat? x with
  | none => Float.ofBits 0x7FF8000000000000
  | some exact =>
    if isTinyAngle exact then 1.0 else ofFixed (fixedSineCosine exact).2

/-- The double nearest to the tangent of an angle in radians. -/
def tangent (x : Float) : Float :=
  match Exact.ofFloat? x with
  | none => Float.ofBits 0x7FF8000000000000
  | some exact =>
    if isTinyAngle exact then x
    else
      let (sine, cosine) := fixedSineCosine exact
      let value := nearestRatio sine.natAbs cosine.natAbs
      if decide (sine < 0) ^^ decide (cosine < 0) ^^ exact.negative then -value
      else value

end Number
end MotionScene
