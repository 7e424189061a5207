import MotionScene.Json.Basic
import MotionScene.Text.Digit

/-!
# Blanks, words, numbers and strings of JSON

Whole numbers that fit 64 bits stay whole, other numbers become the nearest
double.  A number beyond all doubles and a string with half a surrogate pair are
well formed and not readable.
-/

namespace MotionScene
namespace Json
namespace Parser

/-- The blanks of JSON. -/
def isBlank (c : Char) : Bool :=
  c == ' ' || c == '\n' || c == '\t' || c == '\r'

/-- The text after leading blanks. -/
def skipBlanks : List Char → List Char
  | [] => []
  | c :: rest => if isBlank c then skipBlanks rest else c :: rest

/-! ## Numbers -/

/-- Leading digits as a number continued from `value`, their count, and the
rest. -/
def digits (value count : Nat) : List Char → Nat × Nat × List Char
  | [] => (value, count, [])
  | c :: rest =>
    match Digit.decimal? c with
    | some d => digits (10 * value + d) (count + 1) rest
    | none => (value, count, c :: rest)

/-- The digits before the point: a single zero, or digits without a leading
zero. -/
def wholePart? : List Char → Option (Nat × List Char)
  | '0' :: rest => some (0, rest)
  | text =>
    match digits 0 0 text with
    | (_, 0, _) => none
    | (value, _, rest) => some (value, rest)

/-- A fraction after the whole part: the digits of both, how many are after the
point, and whether there was a point. -/
def fraction? (whole : Nat) : List Char → Option (Nat × Nat × Bool × List Char)
  | '.' :: text =>
    match digits whole 0 text with
    | (_, 0, _) => none
    | (value, count, rest) => some (value, count, true, rest)
  | text => some (whole, 0, false, text)

/-- The power of ten after the mark of an exponent. -/
def signedDigits? : List Char → Option (Int × List Char)
  | '-' :: text =>
    match digits 0 0 text with
    | (_, 0, _) => none
    | (value, _, rest) => some (-(value : Int), rest)
  | '+' :: text =>
    match digits 0 0 text with
    | (_, 0, _) => none
    | (value, _, rest) => some (value, rest)
  | text =>
    match digits 0 0 text with
    | (_, 0, _) => none
    | (value, _, rest) => some (value, rest)

/-- An optional exponent and whether there was one. -/
def exponent? : List Char → Option (Int × Bool × List Char)
  | 'e' :: text | 'E' :: text =>
    (signedDigits? text).map fun (power, rest) => (power, true, rest)
  | text => some (0, false, text)

/-- A double with its sign, if it is finite. -/
def signed (negative : Bool) (x : Float) : Json :=
  if x.isFinite then .float (if negative then -x else x) else .unreadable

/-- A number without point and exponent: whole if it fits 64 bits, otherwise the
nearest double.  Minus zero is a double. -/
def wholeNumber (negative : Bool) (value : Nat) : Json :=
  if negative then
    if value = 0 then .float (-0.0)
    else if value ≤ 9223372036854775808 then .int (-(value : Int))
    else signed true (Number.ofDecimal value 0)
  else if value ≤ 18446744073709551615 then .int value
  else signed false (Number.ofDecimal value 0)

/-- The number at the start of a text. -/
def number? (text : List Char) : Option (Json × List Char) := do
  let (negative, text) := match text with
    | '-' :: rest => (true, rest)
    | _ => (false, text)
  let (whole, text) ← wholePart? text
  let (coefficient, places, pointed, text) ← fraction? whole text
  let (power, raised, text) ← exponent? text
  if pointed || raised then
    return (signed negative
      (Number.ofDecimal coefficient (power - places)), text)
  else
    return (wholeNumber negative whole, text)

/-! ## Strings -/

/-- Four hexadecimal digits as a number. -/
def hexUnit? (a b c d : Char) : Option Nat := do
  return (((← Digit.hex? a) * 16 + (← Digit.hex? b)) * 16 +
    (← Digit.hex? c)) * 16 + (← Digit.hex? d)

/-- The character a short escape stands for. -/
def shortEscape? (c : Char) : Option Char :=
  if c = '"' ∨ c = '\\' ∨ c = '/' then some c
  else if c = 'b' then some (Char.ofNat 8)
  else if c = 'f' then some (Char.ofNat 12)
  else if c = 'n' then some '\n'
  else if c = 'r' then some '\r'
  else if c = 't' then some '\t'
  else none

/-- Whether a unit is the first half of a surrogate pair. -/
def isHighUnit (unit : Nat) : Bool :=
  decide (0xD800 ≤ unit ∧ unit < 0xDC00)

/-- Whether a unit is the second half of a surrogate pair. -/
def isLowUnit (unit : Nat) : Bool :=
  decide (0xDC00 ≤ unit ∧ unit < 0xE000)

/-- The rest of a string after its opening quote: its characters, added to the
reversed characters read before, and the text after the closing quote.  Once
half a surrogate pair was read there are no characters, and only the form of the
rest counts. -/
def stringTail? (before : Option (List Char)) :
    List Char → Option (Option String × List Char)
  | [] => none
  | '"' :: rest =>
    some (before.map fun characters => String.ofList characters.reverse, rest)
  | '\\' :: 'u' :: a :: b :: c :: d :: '\\' :: 'u' :: e :: f :: g ::
      h :: rest => do
      let unit ← hexUnit? a b c d
      if isHighUnit unit then
        let low ← hexUnit? e f g h
        if isLowUnit low then
          let character :=
            Char.ofNat (0x10000 + (unit - 0xD800) * 0x400 + (low - 0xDC00))
          stringTail? (before.map (character :: ·)) rest
        else stringTail? none ('\\' :: 'u' :: e :: f :: g :: h :: rest)
      else if isLowUnit unit then
        stringTail? none ('\\' :: 'u' :: e :: f :: g :: h :: rest)
      else
        stringTail? (before.map (Char.ofNat unit :: ·))
          ('\\' :: 'u' :: e :: f :: g :: h :: rest)
  | '\\' :: 'u' :: a :: b :: c :: d :: rest => do
    let unit ← hexUnit? a b c d
    if isHighUnit unit || isLowUnit unit then stringTail? none rest
    else stringTail? (before.map (Char.ofNat unit :: ·)) rest
  | '\\' :: c :: rest => do
    let character ← shortEscape? c
    stringTail? (before.map (character :: ·)) rest
  | c :: rest =>
    if c.toNat < 32 ∨ c = '\\' then none
    else stringTail? (before.map (c :: ·)) rest

/-- The string of the characters after an opening quote. -/
def string? (text : List Char) : Option (Json × List Char) :=
  (stringTail? (some []) text).map fun (read, rest) =>
    ((read.map .str).getD .unreadable, rest)

/-! ## Words and values without parts -/

/-- The text after a literal word. -/
def afterWord? : List Char → List Char → Option (List Char)
  | [], text => some text
  | c :: word, d :: text => if c = d then afterWord? word text else none
  | _ :: _, [] => none

/-- The value without parts at the start of a text. -/
def scalar? : List Char → Option (Json × List Char)
  | '"' :: rest => string? rest
  | 't' :: rest =>
    (afterWord? "rue".toList rest).map fun rest => (.bool true, rest)
  | 'f' :: rest =>
    (afterWord? "alse".toList rest).map fun rest => (.bool false, rest)
  | 'n' :: rest => (afterWord? "ull".toList rest).map fun rest => (.null, rest)
  | text => number? text

end Parser
end Json
end MotionScene
