import MotionScene.Json.Scalar

/-!
# Reading JSON text

A text holds exactly one JSON value with blanks around it.  Containers that nest
more than 127 deep are passed over, with their form checked.  `read?` keeps the
place of what is not readable; `parse?` accepts readable trees only.
-/

namespace MotionScene
namespace Json
namespace Parser

/-! ## Passing over values -/

/-- A container that is still open. -/
inductive Open where
  | array
  | object
deriving DecidableEq, Repr

/-- What comes next in a text that is passed over. -/
inductive Upcoming where
  /-- A value. -/
  | value
  /-- The name of a field and its value. -/
  | field
  /-- What may follow a value in the innermost open container. -/
  | separator
deriving DecidableEq, Repr

/-- The text after a value that is passed over, with the open containers
innermost first. -/
def skip? : Nat → Upcoming → List Open → List Char → Option (List Char)
  | 0, _, _, _ => none
  | fuel + 1, .value, containers, text =>
    match skipBlanks text with
    | '[' :: rest =>
      match skipBlanks rest with
      | ']' :: rest => skip? fuel .separator containers rest
      | rest => skip? fuel .value (.array :: containers) rest
    | '\x7b' :: rest =>
      match skipBlanks rest with
      | '\x7d' :: rest => skip? fuel .separator containers rest
      | rest => skip? fuel .field (.object :: containers) rest
    | text => do
      let (_, rest) ← scalar? text
      skip? fuel .separator containers rest
  | fuel + 1, .field, containers, text =>
    match skipBlanks text with
    | '"' :: rest => do
      let (_, rest) ← string? rest
      match skipBlanks rest with
      | ':' :: rest => skip? fuel .value containers rest
      | _ => none
    | _ => none
  | _ + 1, .separator, [], text => some text
  | fuel + 1, .separator, .array :: containers, text =>
    match skipBlanks text with
    | ',' :: rest => skip? fuel .value (.array :: containers) rest
    | ']' :: rest => skip? fuel .separator containers rest
    | _ => none
  | fuel + 1, .separator, .object :: containers, text =>
    match skipBlanks text with
    | ',' :: rest => skip? fuel .field (.object :: containers) rest
    | '\x7d' :: rest => skip? fuel .separator containers rest
    | _ => none

/-- A value that is not held, and the text after it. -/
def passed? (fuel : Nat) (text : List Char) : Option (Json × List Char) :=
  (skip? fuel .value [] text).map fun rest => (.unreadable, rest)

/-! ## Values -/

/-- A field before the others, if its name can be held and they all can. -/
def prepend
    (name : Option String)
    (value : Json)
    (before : Option (List (String × Json))) :
    Option (List (String × Json)) := do
  return (← name, value) :: (← before)

/-- The object of the reversed fields read. -/
def object (reversed : Option (List (String × Json))) : Json :=
  (reversed.map fun fields => .obj fields.reverse).getD .unreadable

mutual

/-- The value at the start of a text, with at most `depth` nested containers. -/
def value? : Nat → Nat → List Char → Option (Json × List Char)
  | 0, _, _ => none
  | fuel + 1, depth, text =>
    match skipBlanks text with
    | '[' :: rest =>
      match depth with
      | 0 => passed? fuel ('[' :: rest)
      | depth + 1 =>
        match skipBlanks rest with
        | ']' :: rest => some (.arr [], rest)
        | rest => items? fuel depth [] rest
    | '\x7b' :: rest =>
      match depth with
      | 0 => passed? fuel ('\x7b' :: rest)
      | depth + 1 =>
        match skipBlanks rest with
        | '\x7d' :: rest => some (.obj [], rest)
        | rest => fields? fuel depth (some []) rest
    | text => scalar? text

/-- The array of the items up to the closing bracket, after the reversed items
before. -/
def items? : Nat → Nat → List Json → List Char → Option (Json × List Char)
  | 0, _, _, _ => none
  | fuel + 1, depth, before, text => do
    let (item, rest) ← value? fuel depth text
    match skipBlanks rest with
    | ',' :: rest => items? fuel depth (item :: before) rest
    | ']' :: rest => some (.arr (item :: before).reverse, rest)
    | _ => none

/-- The object of the fields up to the closing brace, after the reversed fields
before. -/
def fields? :
    Nat → Nat → Option (List (String × Json)) → List Char →
      Option (Json × List Char)
  | 0, _, _, _ => none
  | fuel + 1, depth, before, text =>
    match skipBlanks text with
    | '"' :: rest => do
      let (name, rest) ← stringTail? (some []) rest
      match skipBlanks rest with
      | ':' :: rest => do
        let (value, rest) ← value? fuel depth rest
        match skipBlanks rest with
        | ',' :: rest => fields? fuel depth (prepend name value before) rest
        | '\x7d' :: rest => some (object (prepend name value before), rest)
        | _ => none
      | _ => none
    | _ => none

end

end Parser

/-- The tree of a JSON text, with places for values that are not readable.
Every step of the parser but a constant number per container consumes a
character, so twice the length is fuel enough. -/
def read? (text : String) : Option Json :=
  let characters := text.toList
  match Parser.value? (2 * characters.length + 2) 127 characters with
  | some (tree, rest) =>
    if (Parser.skipBlanks rest).isEmpty then some tree else none
  | none => none

/-- The tree of a JSON text all of whose values are readable. -/
def parse? (text : String) : Option Json := do
  let tree ← read? text
  if tree.isReadable then some tree else none

end Json
end MotionScene
