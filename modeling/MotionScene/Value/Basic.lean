import MotionScene.Color
import MotionScene.Identifier
import MotionScene.Number.Layout
import MotionScene.Value.Kind
import MotionScene.Text.Quoted

/-!
# Values

A value of one of the ten kinds.  Values of some kinds are made of doubles and
blend by blending those.
-/

namespace MotionScene

/-- A typed value. -/
inductive Value where
  | bool (value : Bool)
  | integer (value : Int64)
  | float (value : Float)
  | string (value : String)
  | color (value : Color)
  /-- The position of the chosen option in the property's list. -/
  | options (index : Nat)
  | reference (target : Option OwnerId)
  | trigger
  | integerVector (x y : Int64)
  | floatVector (value : Point Float)
deriving DecidableEq, Repr

namespace Value

/-- The kind of a value. -/
def kind : Value → ValueKind
  | bool _ => .bool
  | integer _ => .integer
  | float _ => .float
  | string _ => .string
  | color _ => .color
  | options _ => .options
  | reference _ => .reference
  | trigger => .trigger
  | integerVector _ _ => .integerVector
  | floatVector _ => .floatVector

/-- The value a new property of the kind has. -/
def default : ValueKind → Value
  | .bool => bool false
  | .integer => integer 0
  | .float => float 0.0
  | .string => string ""
  | .color => color .black
  | .options => options 0
  | .reference => reference none
  | .trigger => trigger
  | .integerVector => integerVector 0 0
  | .floatVector => floatVector .zero

@[simp] theorem kind_default (kind : ValueKind) :
    (default kind).kind = kind := by
  cases kind <;> rfl

/-- Whether two values are equal, doubles being compared as numbers. -/
def agrees : Value → Value → Bool
  | float x, float y => x == y
  | color c, color d => c.agrees d
  | floatVector p, floatVector q => p.agrees q
  | v, w => v = w

/-- The owner a value refers to. -/
def target? : Value → Option OwnerId
  | reference target => target
  | _ => none

/-- The text of a string value. -/
def string? : Value → Option String
  | string s => some s
  | _ => none

/-! ## Blending -/

/-- The doubles a value is made of; none where the kind does not blend. -/
def components : Value → List Float
  | integer v => [Number.ofInt v.toInt]
  | float x => [x]
  | integerVector x y => [Number.ofInt x.toInt, Number.ofInt y.toInt]
  | floatVector p => [p.x, p.y]
  | color c => c.components
  | _ => []

/-- The nearest whole number, halves going away from zero. -/
def roundInteger (x : Float) : Int64 :=
  Number.toInt64 Number.Exact.round x

/-- The value of a kind made of the given doubles. -/
def ofComponents? : ValueKind → List Float → Option Value
  | .integer, [x] => some (integer (roundInteger x))
  | .float, [x] => some (float x)
  | .integerVector, [x, y] =>
    some (integerVector (roundInteger x) (roundInteger y))
  | .floatVector, [x, y] => some (floatVector ⟨x, y⟩)
  | .color, [r, g, b, a] => some (color ⟨r, g, b, a⟩)
  | _, _ => none

/-- The value part of the way to another one.  Values of different kinds, and of
kinds that do not blend, stay as they are. -/
def lerp (v w : Value) (t : Float) : Value :=
  if v.kind = w.kind then
    (ofComponents? v.kind
      (List.zipWith (fun a b => Point.blend a b t) v.components
        w.components)).getD v
  else v

theorem kind_ofComponents? {kind : ValueKind} {parts : List Float} {v : Value}
    (built : ofComponents? kind parts = some v) : v.kind = kind := by
  unfold ofComponents? at built
  split at built <;> simp only [Option.some.injEq, reduceCtorEq] at built <;>
    subst built <;> rfl

/-! ## Text -/

/-- A double in a message. -/
def floatText (x : Float) : String :=
  Number.text .message x

/-- A whole number in a message. -/
def integerText (n : Int64) : String :=
  String.ofList (Number.integerText n.toInt)

/-- A value as messages show it. -/
def describe : Value → String
  | bool true => "true"
  | bool false => "false"
  | integer n => integerText n
  | float x => floatText x
  | string s => Quoted.text s
  | color c => c.describe
  | options index => "option " ++ Nat.repr index
  | reference (some id) => "-> " ++ id.describe
  | reference none => "-> none"
  | trigger => "trigger"
  | integerVector x y => "(" ++ integerText x ++ ", " ++ integerText y ++ ")"
  | floatVector p => "(" ++ floatText p.x ++ ", " ++ floatText p.y ++ ")"

end Value
end MotionScene
