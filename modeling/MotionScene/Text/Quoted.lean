import MotionScene.Text.Digit
import MotionScene.Text.Unprintable

/-!
# Quoted text

Text between double quotes in which every character is visible: quotes and
backslashes are escaped, common control characters have short escapes, and a
character without a mark of its own is written by its number.
-/

namespace MotionScene
namespace Quoted

/-- A number in lower-case hexadecimal digits, as many as it needs; six are
enough for any character. -/
def hexDigits : Nat → Nat → List Char
  | 0, _ => []
  | fuel + 1, n =>
    if n < 16 then [Digit.lowerHex n]
    else hexDigits fuel (n / 16) ++ [Digit.lowerHex (n % 16)]

/-- A character as it stands between quotes. -/
def escaped (c : Char) : List Char :=
  if c = '\x00' then ['\\', '0']
  else if c = '\t' then ['\\', 't']
  else if c = '\r' then ['\\', 'r']
  else if c = '\n' then ['\\', 'n']
  else if c = '\\' then ['\\', '\\']
  else if c = '"' then ['\\', '"']
  else if Unprintable.contains c then
    ['\\', 'u', '\x7b'] ++ hexDigits 6 c.toNat ++ ['\x7d']
  else [c]

/-- The text between quotes. -/
def text (s : String) : String :=
  String.ofList ('"' :: s.toList.flatMap escaped ++ ['"'])

end Quoted
end MotionScene
