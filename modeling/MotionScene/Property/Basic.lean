import MotionScene.Property.Constraints
import MotionScene.Track.Evaluation

/-!
# Properties

A property is a named place for values of one kind, within constraints, and may
be animated by a track.
-/

namespace MotionScene

/-- A named value of a fixed kind. -/
structure Property where
  name : String
  kind : ValueKind
  value : Value
  constraints : Constraints := {}
  track : Option Track := none
deriving DecidableEq, Repr

namespace Property

/-- A property that takes its kind from its value. -/
def ofValue (name : String) (value : Value) : Property :=
  { name, kind := value.kind, value }

/-- Whether two properties are equal, doubles as numbers. -/
def agrees (a b : Property) : Bool :=
  a.name = b.name && a.kind = b.kind && a.value.agrees b.value &&
    a.constraints.agrees b.constraints &&
    Agreement.option Track.agrees a.track b.track

/-- A value moved within the constraints of the property. -/
def constrain (property : Property) (value : Value) : Value :=
  property.constraints.constrain value

/-- The property with its own value moved within its constraints. -/
def settled (property : Property) : Property :=
  { property with value := property.constrain property.value }

/-- A choice from a list of options. -/
def choice (name : String) (options : List String) (selected : Nat) :
    Property :=
  settled { ofValue name (.options selected) with constraints := { options } }

/-- A reference to owners of some categories, pointing nowhere yet. -/
def referring (name : String) (filter : List Category) : Property :=
  { ofValue name (.reference none) with
    constraints := { referenceFilter := some filter } }

/-- The property with both bounds set. -/
def withBounds (property : Property) (low high : Float) : Property :=
  settled { property with
    constraints :=
      { property.constraints with min := some low, max := some high } }

/-- The property with the lower bound set. -/
def withMin (property : Property) (low : Float) : Property :=
  settled { property with
    constraints := { property.constraints with min := some low } }

/-- The property with the advised step set. -/
def withStep (property : Property) (step : Float) : Property :=
  { property with
    constraints := { property.constraints with step := some step } }

/-- Whether the property has a keyframe. -/
def isAnimated (property : Property) : Bool :=
  match property.track with
  | some track => !track.keyframes.isEmpty
  | none => false

/-- The value at a frame: that of the track where there is one, otherwise the
property's own. -/
def valueAt (property : Property) (frame : Option Int32) : Value :=
  match property.track, frame with
  | some track, some frame =>
    ((track.evaluate frame).map property.constrain).getD property.value
  | _, _ => property.value

/-- A value of the right kind, moved within the constraints. -/
def coerce (property : Property) (value : Value) : Except Fault Value :=
  if value.kind = property.kind then .ok (property.constrain value)
  else .error (.typeMismatch property.name property.kind value.kind)

/-- Refuses a value outside the constraints. -/
def checkRange (property : Property) (value : Value) : Except Fault Unit :=
  let clamped := property.constrain value
  if clamped.agrees value then .ok ()
  else
    .error
      (.outOfRange property.name
        s!"{value.describe} clamps to {clamped.describe}")

/-- The property with a value assigned, or nothing where the value is the one it
has. -/
def assign? (property : Property) (value : Value) :
    Except Fault (Option Property) := do
  let coerced ← property.coerce value
  return if coerced.agrees property.value then
    none else some { property with value := coerced }

/-! ## Stored form -/

/-- The property as stored documents have it, without the field for a track if
it has none. -/
def toJson (property : Property) : Json :=
  .obj ([("name", .str property.name), ("kind", property.kind.toJson),
    ("value", property.value.toJson),
    ("constraints", property.constraints.toJson)] ++
    Json.optionalField "track" Track.toJson property.track)

/-- The property of a record; constraints and a track may be missing. -/
def ofJson? (tree : Json) : Option Property := do
  match ← tree.record? ["name", "kind", "value", "constraints", "track"] with
  | [name, kind, value, constraints, track] =>
    return ⟨← Json.required Json.string? name,
      ← Json.required ValueKind.ofJson? kind,
      ← Json.required Value.ofJson? value,
      ← Json.withDefault {} Constraints.ofJson? constraints,
      ← Json.withDefault none (Json.nullable? Track.ofJson?) track⟩
  | _ => none

end Property
end MotionScene
