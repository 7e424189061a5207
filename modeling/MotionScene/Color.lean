import MotionScene.Plane.Point
import MotionScene.Text.Digit

/-!
# Colors

Colors have four channels, nominally between zero and one, stored as given so
that blending stays exact.  They are read from and shown in hexadecimal
notation.
-/

namespace MotionScene

/-- Red, green, blue and opacity. -/
structure Color where
  red : Float
  green : Float
  blue : Float
  alpha : Float
deriving DecidableEq, Repr

namespace Color

/-- Nothing at all. -/
def transparent : Color := ⟨0.0, 0.0, 0.0, 0.0⟩

/-- Opaque black, which pens start with. -/
def black : Color := ⟨0.0, 0.0, 0.0, 1.0⟩

/-- Opaque white, which brushes start with. -/
def white : Color := ⟨1.0, 1.0, 1.0, 1.0⟩

/-- Opaque red. -/
def pureRed : Color := ⟨1.0, 0.0, 0.0, 1.0⟩

/-- Opaque green. -/
def pureGreen : Color := ⟨0.0, 1.0, 0.0, 1.0⟩

/-- Opaque blue. -/
def pureBlue : Color := ⟨0.0, 0.0, 1.0, 1.0⟩

/-- The channels in order. -/
def components (c : Color) : List Float :=
  [c.red, c.green, c.blue, c.alpha]

/-- Whether all channels are equal as numbers. -/
def agrees (c d : Color) : Bool :=
  c.red == d.red && c.green == d.green && c.blue == d.blue && c.alpha == d.alpha

/-- The color part of the way from one color to another. -/
def lerp (c d : Color) (t : Float) : Color :=
  ⟨Point.blend c.red d.red t, Point.blend c.green d.green t,
    Point.blend c.blue d.blue t, Point.blend c.alpha d.alpha t⟩

/-- A channel moved between zero and one; NaN becomes zero. -/
def clampChannel (x : Float) : Float :=
  if x.isNaN then 0.0
  else if x < 0.0 then 0.0
  else if 1.0 < x then 1.0
  else x

/-- Every channel moved between zero and one. -/
def clamped (c : Color) : Color :=
  ⟨clampChannel c.red, clampChannel c.green, clampChannel c.blue,
    clampChannel c.alpha⟩

/-! ## Hexadecimal notation -/

/-- A channel as a whole number up to 255. -/
def channelByte (x : Float) : Nat :=
  (Number.toInt64 Number.Exact.round (clampChannel x * 255.0)).toInt.toNat

/-- The four channels as whole numbers. -/
def bytes (c : Color) : List Nat :=
  c.components.map channelByte

/-- A byte as two hexadecimal digits. -/
def byteText (n : Nat) : List Char :=
  [Digit.upperHex (n / 16), Digit.upperHex (n % 16)]

/-- The color in hexadecimal notation; a fully opaque color has no fourth
pair. -/
def describe (c : Color) : String :=
  let pairs := if channelByte c.alpha = 255 then c.bytes.take 3 else c.bytes
  String.ofList ('#' :: pairs.flatMap byteText)

/-- The byte of a pair of characters: two hexadecimal digits, or a plus sign
before one. -/
def bytePair? (a b : Char) : Option Nat :=
  match Digit.hex? a, Digit.hex? b with
  | some high, some low => some (16 * high + low)
  | none, some low => if a = '+' then some low else none
  | _, _ => none

/-- The channel of a pair of characters. -/
def channelPair? (a b : Char) : Option Float :=
  (bytePair? a b).map fun byte => Number.ofInt byte / 255.0

/-- The color of three or four pairs of characters. -/
def ofPairs? : List Char → Option Color
  | [a, b, c, d, e, f] => do
    return ⟨← channelPair? a b, ← channelPair? c d, ← channelPair? e f, 1.0⟩
  | [a, b, c, d, e, f, g, h] => do
    return ⟨← channelPair? a b, ← channelPair? c d, ← channelPair? e
      f, ← channelPair? g h⟩
  | _ => none

/-- The text after any number of leading number signs. -/
def afterSigns : List Char → List Char
  | [] => []
  | c :: rest => if c = '#' then afterSigns rest else c :: rest

/-- The color of a text in hexadecimal notation; leading number signs are
ignored. -/
def ofHex? (text : String) : Option Color :=
  ofPairs? (afterSigns text.toList)

/-- What is said of a text that is not in hexadecimal notation. -/
def invalidHexMessage : String :=
  "invalid hex color string"

end Color
end MotionScene
