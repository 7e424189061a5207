import MotionScene.Number.Exact
import MotionScene.Toml.Basic
import MotionScene.Toml.Text

/-!
# Numbers, dates and times of TOML

A scalar that is not a string is a run of words with blanks between them.  What
it is follows from its form; a whole number of the right form need not be
readable.
-/

namespace MotionScene
namespace Toml

/-! ## Numbers -/

/-- Whether underscores stand only between other characters. -/
def isSpaced : List Char → Bool
  | [] => false
  | [c] => c ≠ '_'
  | '_' :: _ => false
  | _ :: '_' :: '_' :: _ => false
  | _ :: '_' :: rest => isSpaced rest
  | _ :: rest => isSpaced rest

/-- The digits of a number, without the underscores between them. -/
def digits? (value? : Char → Option Nat) (text : List Char) :
    Option (List Nat) :=
  if isSpaced text then (text.filter (· ≠ '_')).mapM value? else none

/-- The number of digits in a base. -/
def number (base : Nat) (digits : List Nat) : Nat :=
  digits.foldl (fun n digit => base * n + digit) 0

/-- The value of a digit below a base. -/
def digitBelow? (base : Nat) (c : Char) : Option Nat :=
  (Digit.hex? c).filter (· < base)

/-- A whole number, if it is within 128 bits with or without a sign. -/
def sized (n : Int) : Toml :=
  if -170141183460469231731687303715884105728 ≤ n ∧
    n ≤ 340282366920938463463374607431768211455
  then .integer n
  else .unreadable

/-- A whole number in a base; without digits it is not readable. -/
def based? (base : Nat) (text : List Char) : Option Toml :=
  if text.isEmpty then some .unreadable
  else
    (digits? (digitBelow? base) text).map fun digits =>
      sized (number base digits)

/-- Decimal digits without a needless zero in front. -/
def whole? (text : List Char) : Option (List Nat) := do
  match ← digits? Digit.decimal? text with
  | 0 :: _ :: _ => none
  | digits => some digits

/-- The parts of a text between its underscores. -/
def groups : List Char → List (List Char)
  | [] => [[]]
  | c :: rest =>
    match groups rest with
    | group :: others =>
      if c = '_' then [] :: group :: others else (c :: group) :: others
    | [] => [[c]]

/-- Whether a character is a digit in base 16. -/
def isHexDigit (c : Char) : Bool :=
  (Digit.hex? c).isSome

/-- Whether a digit of some base stands on either side of every underscore
between groups that follow another one. -/
def areSpaced : List (List Char) → Bool
  | [] => true
  | [last] => last.head?.any isHexDigit
  | group :: rest =>
    group.head?.any isHexDigit && group.getLast?.any isHexDigit &&
      areSpaced rest

/-- A decimal whole number.  Its first group has to be of digits without a
needless zero in front; other characters in later groups make it unreadable. -/
def integer? (negative : Bool) (text : List Char) : Option Toml :=
  match groups text with
  | [] | [] :: _ => none
  | first :: others => do
    let high ← first.mapM Digit.decimal?
    if (first.head? = some '0' && 1 < text.length) || !areSpaced others ||
      text.contains ' ' then none
    else
      match others.flatten.mapM Digit.decimal? with
      | some low =>
        let n : Int := number 10 (high ++ low)
        some (sized (if negative then -n else n))
      | none => some .unreadable

/-- A power of ten after the mark of an exponent. -/
def power? (text : List Char) : Option Int := do
  match text with
  | '-' :: rest =>
    return -((number 10 (← digits? Digit.decimal? rest) : Nat) : Int)
  | '+' :: rest => return number 10 (← digits? Digit.decimal? rest)
  | _ => return number 10 (← digits? Digit.decimal? text)

/-- The double nearest to digits with a power of ten, if it is finite. -/
def decimal (negative : Bool) (digits : List Nat) (power : Int) : Toml :=
  let size := Number.ofDecimal (number 10 digits) power
  if size.isFinite then
    .float (if negative then -size else size) else .unreadable

/-- The letters that begin an exponent. -/
def isExponentMark (c : Char) : Bool :=
  c == 'e' || c == 'E'

/-- A double: a whole part, then a fraction, an exponent, or both. -/
def float? (negative : Bool) (text : List Char) : Option Toml := do
  let mantissa := text.takeWhile fun c => !isExponentMark c
  let power ← match text.dropWhile fun c => !isExponentMark c with
    | [] => some 0
    | _ :: exponent => power? exponent
  match mantissa.dropWhile (· ≠ '.') with
  | [] => return decimal negative (← whole? mantissa) power
  | _ :: after =>
    let fraction ← digits? Digit.decimal? after
    let whole ← whole? (mantissa.takeWhile (· ≠ '.'))
    return decimal negative (whole ++ fraction) (power - fraction.length)

/-- A number after its sign. -/
def unsigned? (negative : Bool) (text : List Char) : Option Toml :=
  if text = ['i', 'n', 'f'] then
    some (.float (if negative then -1.0 / 0.0 else 1.0 / 0.0))
  else if text = ['n', 'a', 'n'] then some (.float (0.0 / 0.0))
  else if text.any fun c => c == '.' || isExponentMark c then
    float? negative text
  else integer? negative text

/-- A number; only decimal ones have a sign. -/
def number? : List Char → Option Toml
  | '0' :: 'x' :: rest => based? 16 rest
  | '0' :: 'o' :: rest => based? 8 rest
  | '0' :: 'b' :: rest => based? 2 rest
  | '+' :: rest => unsigned? false rest
  | '-' :: rest => unsigned? true rest
  | text => unsigned? false text

/-! ## Dates and times -/

/-- A number of exactly the given digits. -/
def fixed? (text : List Char) : Option Nat := do
  return number 10 (← text.mapM Digit.decimal?)

/-- Whether a year has a leap day. -/
def isLeap (year : Nat) : Bool :=
  year % 4 = 0 && (year % 100 ≠ 0 || year % 400 = 0)

/-- How many days a month of a year has. -/
def daysIn (year month : Nat) : Nat :=
  if month = 2 then (if isLeap year then 29 else 28)
  else if month = 4 ∨ month = 6 ∨ month = 9 ∨ month = 11 then 30
  else 31

/-- The text after a date. -/
def date? : List Char → Option (List Char)
  | a :: b :: c :: d :: '-' :: e :: f :: '-' :: g :: h :: rest => do
    let year ← fixed? [a, b, c, d]
    let month ← fixed? [e, f]
    let day ← fixed? [g, h]
    if 1 ≤ month ∧ month ≤ 12 ∧ 1 ≤ day ∧ day ≤ daysIn year month then some rest
    else none
  | _ => none

/-- The text after hours and minutes. -/
def hourMinute? : List Char → Option (List Char)
  | a :: b :: ':' :: c :: d :: rest => do
    let hour ← fixed? [a, b]
    let minute ← fixed? [c, d]
    if hour ≤ 23 ∧ minute ≤ 59 then some rest else none
  | _ => none

/-- The text after a fraction of a second. -/
def secondFraction? : List Char → Option (List Char)
  | '.' :: rest =>
    if (rest.takeWhile Char.isDigit).isEmpty then none
    else some (rest.dropWhile Char.isDigit)
  | text => some text

/-- The text after seconds, which may be missing. -/
def seconds? : List Char → Option (List Char)
  | ':' :: a :: b :: rest => do
    if (← fixed? [a, b]) ≤ 60 then secondFraction? rest else none
  | text => some text

/-- The text after a time of day. -/
def time? (text : List Char) : Option (List Char) := do
  seconds? (← hourMinute? text)

/-- Whether a text is a distance from universal time. -/
def isOffset : List Char → Bool
  | [] => true
  | ['Z'] | ['z'] => true
  | '+' :: rest | '-' :: rest => hourMinute? rest = some []
  | _ => false

/-- What may stand between a date and a time. -/
def isDateMark (c : Char) : Bool :=
  c == 'T' || c == 't' || c == ' '

/-- A date, a time, or both. -/
def moment? (text : List Char) : Option Toml :=
  match date? text with
  | some [] => some .moment
  | some (mark :: rest) =>
    match time? rest with
    | some offset =>
      if isDateMark mark && isOffset offset then some .moment else none
    | none => none
  | none => if time? text = some [] then some .moment else none

/-! ## Scalars -/

/-- Characters that end a scalar other than a string. -/
def endsScalar (c : Char) : Bool :=
  "=,[]\x7b\x7d#\r\n".toList.contains c

/-- Whether a character cannot start a further word of a scalar. -/
def startsNoWord (c : Char) : Bool :=
  endsScalar c || c == '.' || c == '"' || c == '\''

/-- The rest of a scalar and the text after it; blanks belong to it if a word
follows.  The characters before are given last first, those of the blanks since
the last word apart. -/
def scalarTail (before blanks : List Char) : List Char → List Char × List Char
  | [] => (before.reverse, blanks.reverse)
  | c :: rest =>
    if isBlank c then scalarTail before (c :: blanks) rest
    else if endsScalar c || (!blanks.isEmpty && startsNoWord c) then
      (before.reverse, blanks.reverse ++ c :: rest)
    else scalarTail (c :: blanks ++ before) [] rest

/-- The words at the start of a text that form a scalar, and the text after
them. -/
def scalarText (text : List Char) : List Char × List Char :=
  scalarTail [] [] text

/-- A scalar that is no string. -/
def scalar? (text : List Char) : Option Toml :=
  if text = ['t', 'r', 'u', 'e'] then some (.boolean true)
  else if text = ['f', 'a', 'l', 's', 'e'] then some (.boolean false)
  else number? text <|> moment? text

end Toml
end MotionScene
