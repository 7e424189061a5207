import MotionScene.Document.Snapshot
import MotionScene.Proofs.Json.Reading

/-!
# The parts of stored records

Every record of a document is stored as an object with one slot for each of its
parts.  This module names the slots, and lists the doubles a record holds and
the natural numbers it holds, which are the parts that have limits: a double
that is not finite is stored as null, and a number is read only up to sixty-four
bits.
-/

namespace MotionScene

namespace Point

/-- Both coordinates. -/
def doubles (point : Point Float) : List Float :=
  [point.x, point.y]

/-- A slot for each coordinate. -/
def slots (point : Point Float) : List (String × Option Json) :=
  [("x", some (.ofFloat point.x)), ("y", some (.ofFloat point.y))]

theorem toJson_eq_slots (point : Point Float) :
    point.toJson = .obj (Json.present point.slots) :=
  rfl

end Point

namespace Color

/-- A slot for each channel. -/
def slots (color : Color) : List (String × Option Json) :=
  [("r", some (.ofFloat color.red)), ("g", some (.ofFloat color.green)),
    ("b", some (.ofFloat color.blue)), ("a", some (.ofFloat color.alpha))]

theorem toJson_eq_slots (color : Color) :
    color.toJson = .obj (Json.present color.slots) :=
  rfl

end Color

namespace Value

/-- The doubles of a value: a number, channels or coordinates. -/
def doubles : Value → List Float
  | float x => [x]
  | color c => c.components
  | floatVector p => p.doubles
  | _ => []

/-- The natural numbers of a value: the index of an option or the target of a
reference. -/
def numbers : Value → List Nat
  | options index => [index]
  | reference target => (target.map OwnerId.number).toList
  | _ => []

/-- The kind of a value, and its content where it has one. -/
def slots (value : Value) : List (String × Option Json) :=
  [("kind", some (.str value.kind.name)), ("value", value.content)]

theorem toJson_eq_slots (value : Value) :
    value.toJson = .obj (Json.present value.slots) := by
  rw [toJson, Json.optionalField_eq_present, Option.map_id_fun]
  rfl

end Value

namespace Tangents

/-- The slopes of both sides. -/
def doubles (tangents : Tangents) : List Float :=
  tangents.incoming ++ tangents.outgoing

/-- A slot for the slopes of each side. -/
def slots (tangents : Tangents) : List (String × Option Json) :=
  [("incoming", some (.ofList .ofFloat tangents.incoming)),
    ("outgoing", some (.ofList .ofFloat tangents.outgoing))]

theorem toJson_eq_slots (tangents : Tangents) :
    tangents.toJson = .obj (Json.present tangents.slots) :=
  rfl

end Tangents

namespace Keyframe

/-- The doubles of the value and of the slopes. -/
def doubles (keyframe : Keyframe) : List Float :=
  keyframe.value.doubles ++ keyframe.tangents.toList.flatMap Tangents.doubles

/-- The natural numbers of the value. -/
def numbers (keyframe : Keyframe) : List Nat :=
  keyframe.value.numbers

/-- The slots of a keyframe; that for slopes may be empty. -/
def slots (keyframe : Keyframe) : List (String × Option Json) :=
  [("frame", some (.int keyframe.frame.toInt)),
    ("value", some keyframe.value.toJson),
    ("tangents", keyframe.tangents.map Tangents.toJson)]

theorem toJson_eq_slots (keyframe : Keyframe) :
    keyframe.toJson = .obj (Json.present keyframe.slots) := by
  rw [toJson, Json.optionalField_eq_present]
  rfl

end Keyframe

namespace PropertyAddress

/-- The slots of an address, both filled. -/
def slots (address : PropertyAddress) : List (String × Option Json) :=
  [("owner", some address.owner.toJson),
    ("property", some (.str address.property))]

theorem toJson_eq_slots (address : PropertyAddress) :
    address.toJson = .obj (Json.present address.slots) :=
  rfl

end PropertyAddress

namespace Track

/-- The doubles of all keyframes. -/
def doubles (track : Track) : List Float :=
  track.keyframes.flatMap Keyframe.doubles

/-- The owner of the animated property and the natural numbers of all
keyframes. -/
def numbers (track : Track) : List Nat :=
  track.target.owner.number :: track.keyframes.flatMap Keyframe.numbers

/-- The slots of a track, all filled. -/
def slots (track : Track) : List (String × Option Json) :=
  [("target", some track.target.toJson), ("kind", some track.kind.toJson),
    ("interpolation", some track.interpolation.toJson),
    ("keyframes", some (.ofList Keyframe.toJson track.keyframes))]

theorem toJson_eq_slots (track : Track) :
    track.toJson = .obj (Json.present track.slots) :=
  rfl

end Track

namespace Constraints

/-- The bounds and the step, where they are set. -/
def doubles (constraints : Constraints) : List Float :=
  constraints.min.toList ++ constraints.max.toList ++ constraints.step.toList

/-- The slots of constraints, each of which may be empty. -/
def slots (constraints : Constraints) : List (String × Option Json) :=
  [("min", constraints.min.map .ofFloat), ("max", constraints.max.map .ofFloat),
    ("step", constraints.step.map .ofFloat),
    ("options", Json.filled .str constraints.options),
    ("reference_filter",
      constraints.referenceFilter.map (.ofList Category.toJson))]

theorem toJson_eq_slots (constraints : Constraints) :
    constraints.toJson = .obj (Json.present constraints.slots) := by
  simp only [toJson, Json.optionalField_eq_present, Json.filledField_eq_present,
    ← Json.present_append]
  rfl

end Constraints

namespace Property

/-- The doubles of the value, of the constraints and of the track. -/
def doubles (property : Property) : List Float :=
  property.value.doubles ++ property.constraints.doubles ++
    property.track.toList.flatMap Track.doubles

/-- The natural numbers of the value and of the track. -/
def numbers (property : Property) : List Nat :=
  property.value.numbers ++ property.track.toList.flatMap Track.numbers

/-- The slots of a property; that for a track may be empty. -/
def slots (property : Property) : List (String × Option Json) :=
  [("name", some (.str property.name)), ("kind", some property.kind.toJson),
    ("value", some property.value.toJson),
    ("constraints", some property.constraints.toJson),
    ("track", property.track.map Track.toJson)]

theorem toJson_eq_slots (property : Property) :
    property.toJson = .obj (Json.present property.slots) := by
  rw [toJson, Json.optionalField_eq_present]
  rfl

end Property

namespace Knot

/-- The coordinates of the position and of both tangents. -/
def doubles (knot : Knot Float) : List Float :=
  knot.position.doubles ++ knot.leftTangent.doubles ++ knot.rightTangent.doubles

/-- The slots of a knot, all filled. -/
def slots (knot : Knot Float) : List (String × Option Json) :=
  [("position", some knot.position.toJson),
    ("left_tangent", some knot.leftTangent.toJson),
    ("right_tangent", some knot.rightTangent.toJson),
    ("mode", some knot.mode.toJson)]

theorem toJson_eq_slots (knot : Knot Float) :
    knot.toJson = .obj (Json.present knot.slots) :=
  rfl

end Knot

namespace Path

/-- The doubles of all knots. -/
def doubles (path : Path Float) : List Float :=
  path.knots.flatMap Knot.doubles

/-- The slots of a path, both filled. -/
def slots (path : Path Float) : List (String × Option Json) :=
  [("knots", some (.ofList Knot.toJson path.knots)),
    ("closed", some (.bool path.closed))]

theorem toJson_eq_slots (path : Path Float) :
    path.toJson = .obj (Json.present path.slots) :=
  rfl

end Path

namespace OwnerKind

/-- The slots of a kind; a style has no type. -/
def slots (kind : OwnerKind) : List (String × Option Json) :=
  [("category", some (.str kind.category.name)),
    ("type", kind.typeName?.map .str)]

theorem toJson_eq_slots (kind : OwnerKind) :
    kind.toJson = .obj (Json.present kind.slots) := by
  rw [toJson, Json.optionalField_eq_present]
  rfl

end OwnerKind

namespace Owner

/-- The doubles of the properties and of the geometry. -/
def doubles (owner : Owner) : List Float :=
  owner.properties.flatMap Property.doubles ++
    owner.geometry.toList.flatMap Path.doubles

/-- The number of the owner, those its properties hold and those of the owners
it is linked with. -/
def numbers (owner : Owner) : List Nat :=
  owner.id.number :: (owner.properties.flatMap Property.numbers ++
    (owner.parent.toList ++ owner.children ++ owner.tags).map OwnerId.number)

/-- The slots of an owner; those for lists are empty where the lists are. -/
def slots (owner : Owner) : List (String × Option Json) :=
  [("id", some owner.id.toJson), ("kind", some owner.kind.toJson),
    ("properties", some (.ofList Property.toJson owner.properties)),
    ("parent", some (.ofOption OwnerId.toJson owner.parent)),
    ("children", Json.filled OwnerId.toJson owner.children),
    ("tags", Json.filled OwnerId.toJson owner.tags),
    ("geometry", owner.geometry.map Path.toJson)]

theorem toJson_eq_slots (owner : Owner) :
    owner.toJson = .obj (Json.present owner.slots) := by
  simp only [toJson, idsField, Json.optionalField_eq_present,
    Json.filledField_eq_present, List.append_assoc, ← Json.present_append]
  rfl

end Owner

namespace Clock

/-- The slots of a clock, all filled. -/
def slots (clock : Clock) : List (String × Option Json) :=
  [("start", some (.int clock.start.toInt)),
    ("end", some (.int clock.stop.toInt)),
    ("current", some (.int clock.current.toInt)),
    ("fps", some (.ofFloat clock.fps)),
    ("play_mode", some clock.playMode.toJson)]

theorem toJson_eq_slots (clock : Clock) :
    clock.toJson = .obj (Json.present clock.slots) :=
  rfl

end Clock

namespace Snapshot

/-- The frame rate and the doubles of all owners. -/
def doubles (snapshot : Snapshot) : List Float :=
  snapshot.clock.fps :: snapshot.owners.flatMap Owner.doubles

/-- The numbers in the lists of the document and those of all owners. -/
def numbers (snapshot : Snapshot) : List Nat :=
  (snapshot.root ::
    (snapshot.styles ++ snapshot.tools ++ snapshot.selection)).map
        OwnerId.number ++
    snapshot.owners.flatMap Owner.numbers

/-- The slots of a document, all filled. -/
def slots (snapshot : Snapshot) : List (String × Option Json) :=
  snapshot.fields.map fun field => (field.1, some field.2)

theorem toJson_eq_slots (snapshot : Snapshot) :
    snapshot.toJson = .obj (Json.present snapshot.slots) :=
  rfl

end Snapshot

end MotionScene
