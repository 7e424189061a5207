import MotionScene.Agreement
import MotionScene.Owner.Kind
import MotionScene.Value.Basic

/-!
# Constraints of properties

What values a property may hold: numeric bounds, the list of options, and the
sorts of owner a reference may point at.
-/

namespace MotionScene

/-- Restrictions on the values of a property; the step is only advice to
editors. -/
structure Constraints where
  min : Option Float := none
  max : Option Float := none
  step : Option Float := none
  options : List String := []
  referenceFilter : Option (List Category) := none
deriving DecidableEq, Repr

namespace Constraints

/-- Whether two sets of constraints are equal, doubles as numbers. -/
def agrees (a b : Constraints) : Bool :=
  Agreement.option (· == ·) a.min b.min &&
    Agreement.option (· == ·) a.max b.max &&
    Agreement.option (· == ·) a.step b.step && a.options = b.options &&
    a.referenceFilter = b.referenceFilter

/-- The greatest finite double. -/
def greatestFloat : Float := 1.7976931348623157e308

/-- An infinite double moved to the greatest finite one of its sign. -/
def makeFinite (x : Float) : Float :=
  if x < -greatestFloat then -greatestFloat
  else if greatestFloat < x then greatestFloat
  else x

/-- A double moved up to the lower bound and then down to the upper bound.  NaN
becomes the lower bound, failing that the upper bound, failing that zero. -/
def clampFloat (constraints : Constraints) (x : Float) : Float :=
  if x.isNaN then (constraints.min.or constraints.max).getD 0.0
  else
    let raised := match constraints.min with
      | some low => if makeFinite x < low then low else makeFinite x
      | none => makeFinite x
    match constraints.max with
    | some high => if high < raised then high else raised
    | none => raised

/-- A whole number moved up to the least one within the lower bound and then
down to the greatest one within the upper bound. -/
def clampInteger (constraints : Constraints) (n : Int64) : Int64 :=
  let raised := match constraints.min with
    | some low =>
      if Number.ofInt n.toInt < low then Number.toInt64 Number.Exact.ceil low
      else n
    | none => n
  match constraints.max with
  | some high =>
    if high < Number.ofInt raised.toInt then
      Number.toInt64 Number.Exact.floor high
    else raised
  | none => raised

/-- A value moved within the constraints. -/
def constrain (constraints : Constraints) : Value → Value
  | .integer n => .integer (constraints.clampInteger n)
  | .float x => .float (constraints.clampFloat x)
  | .integerVector x y =>
    .integerVector (constraints.clampInteger x) (constraints.clampInteger y)
  | .floatVector p =>
    .floatVector ⟨constraints.clampFloat p.x, constraints.clampFloat p.y⟩
  | .color c => .color c.clamped
  | .options index =>
    .options (if constraints.options.isEmpty then index
      else Nat.min index (constraints.options.length - 1))
  | value => value

/-- Whether a reference may point at owners of a category. -/
def allows (constraints : Constraints) (category : Category) : Bool :=
  match constraints.referenceFilter with
  | some allowed => category ∈ allowed
  | none => true

@[simp] theorem kind_constrain (constraints : Constraints) (value : Value) :
    (constraints.constrain value).kind = value.kind := by
  cases value <;> rfl

/-- The constraints as stored documents have them; what is not restricted is
left out. -/
def toJson (constraints : Constraints) : Json :=
  .obj (Json.optionalField "min" .ofFloat constraints.min ++
    Json.optionalField "max" .ofFloat constraints.max ++
    Json.optionalField "step" .ofFloat constraints.step ++
    (if constraints.options.isEmpty then []
      else [("options", .ofList .str constraints.options)]) ++
    Json.optionalField "reference_filter"
      (.ofList Category.toJson) constraints.referenceFilter)

/-- The constraints of a record, any field of which may be missing. -/
def ofJson? (tree : Json) : Option Constraints := do
  match ← tree.record?
    ["min", "max", "step", "options", "reference_filter"] with
  | [min, max, step, options, filter] =>
    return ⟨← Json.withDefault none (Json.nullable? Json.float?) min,
      ← Json.withDefault none (Json.nullable? Json.float?) max,
      ← Json.withDefault none (Json.nullable? Json.float?) step,
      ← Json.withDefault [] (Json.list? Json.string?) options,
      ← Json.withDefault none
        (Json.nullable? (Json.list? Category.ofJson?)) filter⟩
  | _ => none

end Constraints
end MotionScene
