import MotionScene.Json.Basic
import MotionScene.Number.Layout
import MotionScene.Text.Digit

/-!
# JSON text

Two forms of a tree as text: without blanks, and indented by two blanks for each
level.  In strings only quotes, backslashes and control characters are escaped.
A value that cannot be held is written as null.
-/

namespace MotionScene
namespace Json

/-- A character as it stands in a JSON string. -/
def escapeChar (c : Char) : List Char :=
  if c = '"' then ['\\', '"']
  else if c = '\\' then ['\\', '\\']
  else if c = '\n' then ['\\', 'n']
  else if c = '\r' then ['\\', 'r']
  else if c = '\t' then ['\\', 't']
  else if c.toNat = 8 then ['\\', 'b']
  else if c.toNat = 12 then ['\\', 'f']
  else if c.toNat < 32 then ['\\', 'u', '0', '0', Digit.lowerHex (c.toNat / 16),
      Digit.lowerHex (c.toNat % 16)]
  else [c]

/-- A string in quotes, with the characters that need it escaped. -/
def quoted (s : String) : String :=
  String.ofList ('"' :: s.toList.flatMap escapeChar ++ ['"'])

mutual

/-- The text of a tree without blanks. -/
def text : Json → String
  | .null => "null"
  | .bool true => "true"
  | .bool false => "false"
  | .int n => String.ofList (Number.integerText n)
  | .float x => Number.text .document x
  | .str s => quoted s
  | .arr items => "[" ++ ",".intercalate (itemTexts items) ++ "]"
  | .obj fields => "\x7b" ++ ",".intercalate (fieldTexts fields) ++ "\x7d"
  | .unreadable => "null"

/-- The texts of the items of an array. -/
def itemTexts : List Json → List String
  | [] => []
  | item :: rest => item.text :: itemTexts rest

/-- The texts of the fields of an object. -/
def fieldTexts : List (String × Json) → List String
  | [] => []
  | (name, value) :: rest =>
    (quoted name ++ ":" ++ value.text) :: fieldTexts rest

end

/-- A line break and the blanks of an indentation level. -/
def lineBreak (level : Nat) : String :=
  String.ofList ('\n' :: List.replicate (2 * level) ' ')

mutual

/-- The indented text of a tree that stands at the given level. -/
def indentedFrom (level : Nat) : Json → String
  | .arr [] => "[]"
  | .obj [] => "\x7b\x7d"
  | .arr items =>
    "[" ++ lineBreak (level + 1) ++
      ("," ++ lineBreak (level + 1)).intercalate
          (indentedItems (level + 1) items) ++
      lineBreak level ++ "]"
  | .obj fields =>
    "\x7b" ++ lineBreak (level + 1) ++
      ("," ++ lineBreak (level + 1)).intercalate
          (indentedFields (level + 1) fields) ++
      lineBreak level ++ "\x7d"
  | tree => tree.text

/-- The indented texts of the items of an array. -/
def indentedItems (level : Nat) : List Json → List String
  | [] => []
  | item :: rest => item.indentedFrom level :: indentedItems level rest

/-- The indented texts of the fields of an object. -/
def indentedFields (level : Nat) : List (String × Json) → List String
  | [] => []
  | (name, value) :: rest =>
    (quoted name ++ ": " ++ value.indentedFrom level) ::
      indentedFields level rest

end

/-- The indented text of a tree. -/
def indented (tree : Json) : String :=
  tree.indentedFrom 0

end Json
end MotionScene
