import MotionScene.Agreement
import MotionScene.Value.Stored

/-!
# Keyframes

A keyframe fixes the value of a property at a frame, and may give the slopes
with which the value arrives and leaves.
-/

namespace MotionScene

/-- How values blend between neighbouring keyframes. -/
inductive Interpolation where
  | linear
  | smoothCubic
  | step
deriving DecidableEq, Repr

namespace Interpolation

/-- The name in stored documents. -/
def name : Interpolation → String
  | linear => "linear"
  | smoothCubic => "smooth_cubic"
  | step => "step"

/-- The interpolation of a name. -/
def ofName? (text : String) : Option Interpolation :=
  [linear, smoothCubic, step].find? fun interpolation =>
    interpolation.name == text

/-- An interpolation is stored as its name. -/
def toJson (interpolation : Interpolation) : Json :=
  .str interpolation.name

/-- The interpolation of a name, bare or over null. -/
def ofJson? (tree : Json) : Option Interpolation :=
  tree.choice? ofName?

end Interpolation

/-- The slopes on both sides of a keyframe, in units of value for each frame and
each component. -/
structure Tangents where
  incoming : List Float
  outgoing : List Float
deriving DecidableEq, Repr

namespace Tangents

/-- The same slopes on both sides. -/
def uniform (slope : List Float) : Tangents :=
  ⟨slope, slope⟩

/-- Whether all slopes are equal as numbers. -/
def agrees (a b : Tangents) : Bool :=
  Agreement.floats a.incoming b.incoming &&
    Agreement.floats a.outgoing b.outgoing

/-- The slopes as stored documents have them. -/
def toJson (tangents : Tangents) : Json :=
  .obj [("incoming", .ofList .ofFloat tangents.incoming),
    ("outgoing", .ofList .ofFloat tangents.outgoing)]

/-- The slopes of a record with both sides. -/
def ofJson? (tree : Json) : Option Tangents := do
  match ← tree.record? ["incoming", "outgoing"] with
  | [incoming, outgoing] =>
    return ⟨← Json.required (Json.list? Json.float?) incoming,
      ← Json.required (Json.list? Json.float?) outgoing⟩
  | _ => none

end Tangents

/-- A value at a frame. -/
structure Keyframe where
  frame : Int32
  value : Value
  tangents : Option Tangents := none
deriving DecidableEq, Repr

namespace Keyframe

/-- Whether two keyframes are equal, doubles as numbers. -/
def agrees (a b : Keyframe) : Bool :=
  a.frame = b.frame && a.value.agrees b.value &&
    Agreement.option Tangents.agrees a.tangents b.tangents

/-- The keyframe as stored documents have it, without the field for slopes if it
has none. -/
def toJson (keyframe : Keyframe) : Json :=
  .obj ([("frame", .int keyframe.frame.toInt),
    ("value", keyframe.value.toJson)] ++
    Json.optionalField "tangents" Tangents.toJson keyframe.tangents)

/-- The keyframe of a record; slopes may be missing or null. -/
def ofJson? (tree : Json) : Option Keyframe := do
  match ← tree.record? ["frame", "value", "tangents"] with
  | [frame, value, tangents] =>
    return ⟨← Json.required Json.int32? frame,
      ← Json.required Value.ofJson? value,
      ← Json.withDefault none (Json.nullable? Tangents.ofJson?) tangents⟩
  | _ => none

end Keyframe
end MotionScene
