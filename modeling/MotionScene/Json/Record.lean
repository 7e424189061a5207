import MotionScene.Json.Basic

/-!
# Records in JSON

A record is written as an object of named fields, or as the array of its fields
in declared order.  Unknown fields are ignored, a repeated known field is
refused.  A choice without content is written as its name, or as an object whose
only field has that name and is null.  A choice with content has its name in one
field and the content in another.
-/

namespace MotionScene
namespace Json

/-- How often a field name occurs. -/
def countField (name : String) (fields : List (String × Json)) : Nat :=
  (fields.filter fun field => field.1 == name).length

/-- The values of the declared fields of a record, absent where not written. -/
def record? (names : List String) : Json → Option (List (Option Json))
  | .obj fields =>
    if names.all fun name => decide (countField name fields ≤ 1) then
      some (names.map fun name => (Json.obj fields).field? name)
    else none
  | .arr items =>
    if items.length ≤ names.length then
      some (items.map some ++ List.replicate (names.length - items.length) none)
    else none
  | _ => none

/-- A field for a value that may be absent. -/
def optionalField
    {α : Type}
    (name : String)
    (encode : α → Json)
    (value : Option α) :
    List (String × Json) :=
  (value.map fun present => (name, encode present)).toList

/-- A field that has to be written. -/
def required {α : Type} (decode : Json → Option α) (field : Option Json) :
    Option α :=
  field.bind decode

/-- A field with a value for when it is not written. -/
def withDefault {α : Type} (value : α) (decode : Json → Option α) :
    Option Json → Option α
  | none => some value
  | some tree => decode tree

/-- The name of a choice without content. -/
def choiceName? : Json → Option String
  | .str name => some name
  | .obj [(name, .null)] => some name
  | _ => none

/-- A choice without content, by its name. -/
def choice? {α : Type} (ofName? : String → Option α) (tree : Json) : Option α :=
  tree.choiceName?.bind ofName?

/-- Content that stands before the name of its choice, as it is held until the
name is known.  All of it has to be readable, and a choice in it may have an
empty object in place of null. -/
def held? (content : Json) : Option Json :=
  if content.isReadable then
    match content with
    | .obj [(name, .obj [])] => some (.obj [(name, .null)])
    | _ => some content
  else none

/-- Whether the first of two fields that is written is the one with the given
name. -/
def comesFirst (name other : String) (fields : List (String × Json)) : Bool :=
  (fields.find? fun field => field.1 == name || field.1 == other).any
      fun field => field.1 == name

/-- A choice with content: its name in one field and the content in another, or
both in an array, where the name is plain text. -/
def tagged? (nameField contentField : String) :
    Json → Option (String × Option Json)
  | .obj fields => do
    match ← record? [nameField, contentField] (.obj fields) with
    | [name, some content] =>
      let content ← if comesFirst contentField nameField fields then
          held? content else content
      return (← required choiceName? name, some content)
    | [name, none] => return (← required choiceName? name, none)
    | _ => none
  | .arr [.str name, content] => some (name, some content)
  | _ => none

/-- Content that says nothing: absent or null. -/
def noContent? : Option Json → Option Unit
  | none | some .null => some ()
  | _ => none

end Json
end MotionScene
