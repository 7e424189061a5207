import MotionScene.Number.Exact

/-!
# The hypotenuse

The length of a vector is the square root of a sum of two squares.  The sum is
formed exactly, so the double returned is the nearest one to the true length.
-/

namespace MotionScene
namespace Number

/-- One step of the digit-by-digit square root: `root` is the root of the
leading binary digit pairs, and the next pair appends one binary digit. -/
def rootDigit (radicand root position : Nat) : Nat :=
  let candidate := root + twoTo position
  if candidate * candidate ≤ radicand then candidate else root

/-- The root found by trying the binary digits from position `count - 1` down to
zero. -/
def rootDigits (radicand : Nat) : Nat → Nat → Nat
  | 0, root => root
  | count + 1, root => rootDigits radicand count (rootDigit radicand root count)

/-- The whole part of the square root of a natural number. -/
def floorRoot (radicand : Nat) : Nat :=
  rootDigits radicand (Nat.log2 radicand / 2 + 1) 0

/-- The double nearest to the square root of `mantissa * 4 ^ exponent`.  The
root keeps at least 56 binary digits and one more that tells whether it is
exact. -/
def nearestRoot (mantissa : Nat) (exponent : Int) : Float :=
  let shift := 57 - Nat.log2 mantissa / 2
  let radicand := mantissa * twoTo (2 * shift)
  let root := floorRoot radicand
  let cut := if root * root = radicand then 0 else 1
  nearest (2 * root + cut) (exponent - shift - 1)

/-- The double nearest to the length of the vector with the given coordinates.
An infinite coordinate gives an infinite length, even beside NaN. -/
def hypotenuse (x y : Float) : Float :=
  match Exact.ofFloat? x, Exact.ofFloat? y with
  | some a, some b =>
    let exponent := min a.exponent b.exponent
    let first := a.mantissa * twoTo (a.exponent - exponent).toNat
    let second := b.mantissa * twoTo (b.exponent - exponent).toNat
    nearestRoot (first * first + second * second) exponent
  | _, _ =>
    if x.isInf || y.isInf then Float.ofBits 0x7FF0000000000000
    else Float.ofBits 0x7FF8000000000000

end Number
end MotionScene
