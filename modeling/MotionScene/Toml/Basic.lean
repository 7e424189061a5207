/-!
# TOML trees

What a TOML document holds: tables of named values.  Dates and times are told
apart from other values but not kept.  A number may have the form of one and
still not be readable; that is a fault only where somebody looks at it.
-/

namespace MotionScene

/-- A TOML value. -/
inductive Toml where
  | string (value : String)
  | integer (value : Int)
  | float (value : Float)
  | boolean (value : Bool)
  | moment
  /-- A whole number beyond 128 bits or with other characters among its digits,
  or a number beyond all doubles. -/
  | unreadable
  | array (items : List Toml)
  | table (entries : List (String × Toml))
deriving Repr, Inhabited

namespace Toml

mutual

/-- Whether every number of the tree is readable. -/
def isReadable : Toml → Bool
  | .array items => areReadable items
  | .table entries => haveReadableValues entries
  | .unreadable => false
  | _ => true

/-- Whether every item is readable. -/
def areReadable : List Toml → Bool
  | [] => true
  | item :: rest => item.isReadable && areReadable rest

/-- Whether the value of every entry is readable. -/
def haveReadableValues : List (String × Toml) → Bool
  | [] => true
  | (_, value) :: rest => value.isReadable && haveReadableValues rest

end

end Toml

end MotionScene
