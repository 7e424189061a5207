import MotionScene.Number.Decimal

/-!
# Number texts

A layout fixes how a double is written: where positional notation ends, whether
a whole number keeps its point, and the words for values that are not finite.
-/

namespace MotionScene
namespace Number

/-- The decisions of one way of writing doubles. -/
structure Layout where
  /-- Which of two equally near shortest decimals is written. -/
  tie : Tie
  /-- Whether a first digit at this power of ten is written in positional
  notation. -/
  positional : Int → Bool
  /-- Whether a whole number in positional notation ends in `.0`. -/
  keepsPoint : Bool
  notANumber : String
  infinity : String

namespace Layout

/-- Numbers in documents: positional from `0.00001` up to sixteen digits, always
visibly not an integer.  Values that are not finite have no number text. -/
def document : Layout where
  tie := .toEven
  positional power := decide (-5 ≤ power ∧ power ≤ 15)
  keepsPoint := true
  notANumber := "null"
  infinity := "null"

/-- Numbers in messages: always positional, whole numbers without a point. -/
def message : Layout where
  tie := .up
  positional _ := true
  keepsPoint := false
  notANumber := "NaN"
  infinity := "inf"

/-- Numbers in settings files: always positional, whole numbers with a point. -/
def settings : Layout where
  tie := .up
  positional _ := true
  keepsPoint := true
  notANumber := "nan"
  infinity := "inf"

end Layout

/-- Digits in positional notation, the point standing `point` digits after the
start. -/
def positionalText (digits : List Char) (point : Int) (keepsPoint : Bool) :
    List Char :=
  if point ≤ 0 then
    '0' :: '.' :: (List.replicate (-point).toNat '0' ++ digits)
  else if point < digits.length then
    digits.take point.toNat ++ '.' :: digits.drop point.toNat
  else
    digits ++ List.replicate (point.toNat - digits.length) '0' ++
      (if keepsPoint then ['.', '0'] else [])

/-- A whole number with a minus sign where needed. -/
def integerText (n : Int) : List Char :=
  if n < 0 then '-' :: Nat.toDigits 10 n.natAbs else Nat.toDigits 10 n.natAbs

/-- Digits with a point after the first one, when there are more. -/
def pointAfterFirst : List Char → List Char
  | [] => []
  | [digit] => [digit]
  | digit :: rest => digit :: '.' :: rest

/-- Digits in exponent notation; a positive power carries its sign. -/
def exponentText (digits : List Char) (power : Int) : List Char :=
  pointAfterFirst digits ++ 'e' ::
    ((if 0 ≤ power then ['+'] else []) ++ integerText power)

/-- The text of a double in a layout. -/
def text (layout : Layout) (x : Float) : String :=
  match Exact.ofFloat? x with
  | none =>
    if x.isNaN then layout.notANumber
    else if x < 0.0 then "-" ++ layout.infinity
    else layout.infinity
  | some exact =>
    let decimal := Decimal.shortest layout.tie exact
    let digits := decimal.digits
    let body :=
      if layout.positional (decimal.point - 1) then
        positionalText digits decimal.point layout.keepsPoint
      else exponentText digits (decimal.point - 1)
    String.ofList (if exact.negative then '-' :: body else body)

/-- A length with ten significant digits and a power of ten; negative zero is
written as zero. -/
def lengthText (x : Float) : String :=
  match Exact.ofFloat? x with
  | none => if x.isNaN then "NaN" else if x < 0.0 then "-inf" else "inf"
  | some exact =>
    let decimal := Decimal.rounded 10 exact
    let body :=
      if exact.mantissa = 0 then "0.000000000e0".toList
      else
        pointAfterFirst decimal.digits ++ 'e' :: integerText (decimal.point - 1)
    String.ofList
      (if exact.negative ∧ exact.mantissa ≠ 0 then '-' :: body else body)

end Number
end MotionScene
