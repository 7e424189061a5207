import MotionScene.Json.Record

/-!
# Kinds of values

The closed set of kinds a property may have, and what each kind allows.
-/

namespace MotionScene

/-- The kind of a value. -/
inductive ValueKind where
  | bool
  | integer
  | float
  | string
  | color
  | options
  | reference
  | trigger
  | integerVector
  | floatVector
deriving DecidableEq, Repr, Inhabited

namespace ValueKind

/-- Every kind, in declared order. -/
def all : List ValueKind :=
  [bool, integer, float, string, color, options, reference, trigger,
    integerVector, floatVector]

/-- The name a kind is written and read by. -/
def name : ValueKind → String
  | bool => "bool"
  | integer => "integer"
  | float => "float"
  | string => "string"
  | color => "color"
  | options => "options"
  | reference => "reference"
  | trigger => "trigger"
  | integerVector => "integer_vector"
  | floatVector => "float_vector"

/-- The kind of a name. -/
def ofName? (text : String) : Option ValueKind :=
  all.find? fun kind => kind.name == text

/-- How many doubles a value of the kind is made of; zero where values cannot be
blended. -/
def componentCount : ValueKind → Nat
  | integer | float => 1
  | integerVector | floatVector => 2
  | color => 4
  | _ => 0

/-- Whether a property of the kind may have a track. -/
def isAnimatable : ValueKind → Bool
  | reference | trigger => false
  | _ => true

/-- Whether values of the kind blend between keyframes. -/
def isInterpolable (kind : ValueKind) : Bool :=
  0 < kind.componentCount

/-- Whether numeric bounds apply to the kind. -/
def isBounded : ValueKind → Bool
  | integer | float | integerVector | floatVector => true
  | _ => false

/-- A kind is stored as its name. -/
def toJson (kind : ValueKind) : Json :=
  .str kind.name

/-- The kind of a name, bare or over null. -/
def ofJson? (tree : Json) : Option ValueKind :=
  tree.choice? ofName?

@[simp] theorem ofName?_name (kind : ValueKind) :
    ofName? kind.name = some kind := by
  cases kind <;> rfl

end ValueKind
end MotionScene
