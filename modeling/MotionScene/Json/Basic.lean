import MotionScene.Number.Exact

/-!
# JSON trees

A JSON tree keeps whole numbers apart from doubles and keeps the fields of an
object in written order, repetitions included.  A value that is well formed but
cannot be held has its place in the tree, so that a reader can pass over it; no
shape accepts it.  Reading a tree by shape, and bringing objects into sorted
order, are defined here; text is the business of the printer and the parser.
-/

namespace MotionScene

/-- A JSON value; an object is the list of its fields as written. -/
inductive Json where
  | null
  | bool (value : Bool)
  | int (value : Int)
  | float (value : Float)
  | str (value : String)
  | arr (items : List Json)
  | obj (fields : List (String × Json))
  /-- A number out of range, text with half a surrogate pair, an object with
  such text for a name, or a container nested too deep. -/
  | unreadable
deriving Repr, Inhabited

namespace Json

/-- A double as JSON; a double that is not finite has no number and becomes
null. -/
def ofFloat (x : Float) : Json :=
  if x.isFinite then .float x else .null

/-- A natural number as JSON. -/
def ofNat (n : Nat) : Json :=
  .int n

/-- An optional value as JSON, null when absent. -/
def ofOption {α : Type} (encode : α → Json) : Option α → Json
  | none => .null
  | some value => encode value

/-- A list as a JSON array. -/
def ofList {α : Type} (encode : α → Json) (items : List α) : Json :=
  .arr (items.map encode)

/-! ## Reading by shape -/

/-- The truth value, if the tree is one. -/
def bool? : Json → Option Bool
  | .bool value => some value
  | _ => none

/-- The text, if the tree is a string. -/
def string? : Json → Option String
  | .str value => some value
  | _ => none

/-- The items, if the tree is an array. -/
def items? : Json → Option (List Json)
  | .arr items => some items
  | _ => none

/-- The number as a double; whole numbers are rounded to the nearest double. -/
def float? : Json → Option Float
  | .int n => some (Number.ofInt n)
  | .float x => some x
  | _ => none

/-- The whole number, if the tree is one. -/
def int? : Json → Option Int
  | .int n => some n
  | _ => none

/-- The whole number, if it fits a signed 32-bit integer. -/
def int32? (tree : Json) : Option Int32 := do
  let n ← tree.int?
  if -2147483648 ≤ n ∧ n ≤ 2147483647 then some (Int32.ofInt n) else none

/-- The whole number, if it fits a signed 64-bit integer. -/
def int64? (tree : Json) : Option Int64 := do
  let n ← tree.int?
  if -9223372036854775808 ≤ n ∧ n ≤ 9223372036854775807 then
    some (Int64.ofInt n)
  else none

/-- The whole number, if it fits an unsigned 64-bit integer. -/
def nat64? (tree : Json) : Option Nat := do
  let n ← tree.int?
  if 0 ≤ n ∧ n ≤ 18446744073709551615 then some n.toNat else none

/-- The items of an array, each read the same way. -/
def list? {α : Type} (decode : Json → Option α) (tree : Json) :
    Option (List α) := do
  (← tree.items?).mapM decode

/-- A pair written as an array of two items. -/
def pair? {α β : Type} (first : Json → Option α) (second : Json → Option β) :
    Json → Option (α × β)
  | .arr [a, b] => do return (← first a, ← second b)
  | _ => none

/-- A value that may be null. -/
def nullable? {α : Type} (decode : Json → Option α) : Json → Option (Option α)
  | .null => some none
  | tree => (decode tree).map some

/-- The value of the first field with the given name. -/
def field? (name : String) : Json → Option Json
  | .obj fields => (fields.find? fun field => field.1 == name).map Prod.snd
  | _ => none

/-! ## Readable trees -/

mutual

/-- Whether every value of the tree can be held. -/
def isReadable : Json → Bool
  | .arr items => areReadable items
  | .obj fields => haveReadableValues fields
  | .unreadable => false
  | _ => true

/-- Whether every item is readable. -/
def areReadable : List Json → Bool
  | [] => true
  | item :: rest => item.isReadable && areReadable rest

/-- Whether the value of every field is readable. -/
def haveReadableValues : List (String × Json) → Bool
  | [] => true
  | (_, value) :: rest => value.isReadable && haveReadableValues rest

end

/-! ## Sorted objects -/

/-- Puts a field in its place among fields sorted by name, over one of the same
name. -/
def insertField (name : String) (value : Json) :
    List (String × Json) → List (String × Json)
  | [] => [(name, value)]
  | field :: rest =>
    if name < field.1 then (name, value) :: field :: rest
    else if name = field.1 then (name, value) :: rest
    else field :: insertField name value rest

/-- Fields sorted by name; of fields with one name the last one stays. -/
def sortFields (fields : List (String × Json)) : List (String × Json) :=
  fields.foldl (fun sorted field => insertField field.1 field.2 sorted) []

mutual

/-- The tree with the fields of every object sorted by name. -/
def sorted : Json → Json
  | .arr items => .arr (sortedItems items)
  | .obj fields => .obj (sortFields (sortedFields fields))
  | tree => tree

/-- Every item sorted. -/
def sortedItems : List Json → List Json
  | [] => []
  | item :: rest => item.sorted :: sortedItems rest

/-- The value of every field sorted. -/
def sortedFields : List (String × Json) → List (String × Json)
  | [] => []
  | (name, value) :: rest => (name, value.sorted) :: sortedFields rest

end

end Json
end MotionScene
