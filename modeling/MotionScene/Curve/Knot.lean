import MotionScene.Plane.Transform
import MotionScene.Value.Stored

/-!
# Knots

A knot is a point of a path with a tangent on either side.  Its mode says how
the tangents hang together: a linear knot has none, a smooth knot has opposite
ones, a bezier knot has two of its own.
-/

namespace MotionScene

/-- How the tangents of a knot hang together. -/
inductive KnotMode where
  | linear
  | smooth
  | bezier
deriving DecidableEq, Repr

namespace KnotMode

/-- The name in stored documents. -/
def name : KnotMode → String
  | linear => "linear"
  | smooth => "smooth"
  | bezier => "bezier"

/-- The mode of a name. -/
def ofName? (text : String) : Option KnotMode :=
  [linear, smooth, bezier].find? fun mode => mode.name == text

/-- A mode is stored as its name. -/
def toJson (mode : KnotMode) : Json :=
  .str mode.name

/-- The mode of a name, bare or over null. -/
def ofJson? (tree : Json) : Option KnotMode :=
  tree.choice? ofName?

end KnotMode

/-- A point of a path; tangents are offsets from its position. -/
structure Knot (R : Type) where
  position : Point R
  leftTangent : Point R
  rightTangent : Point R
  mode : KnotMode
deriving DecidableEq, Repr

namespace Knot

variable {R : Type}

/-- A knot without tangents. -/
def linear [OfScientific R] (position : Point R) : Knot R :=
  ⟨position, .zero, .zero, .linear⟩

/-- A knot whose left tangent is opposite to the right one. -/
def smooth [Neg R] (position right : Point R) : Knot R :=
  ⟨position, -right, right, .smooth⟩

/-- A knot with two tangents of its own. -/
def bezier (position left right : Point R) : Knot R :=
  ⟨position, left, right, .bezier⟩

/-- The end of the left tangent. -/
def leftHandle [Add R] (knot : Knot R) : Point R :=
  knot.position + knot.leftTangent

/-- The end of the right tangent. -/
def rightHandle [Add R] (knot : Knot R) : Point R :=
  knot.position + knot.rightTangent

/-- Whether all parts are equal, coordinates as numbers. -/
def agrees [BEq R] (a b : Knot R) : Bool :=
  a.position.agrees b.position && a.leftTangent.agrees b.leftTangent &&
    a.rightTangent.agrees b.rightTangent && a.mode = b.mode

/-- The knot with another left tangent, as far as its mode lets it have one. -/
def setLeftTangent [Neg R] (knot : Knot R) (tangent : Point R) : Knot R :=
  match knot.mode with
  | .linear => knot
  | .smooth => { knot with leftTangent := tangent, rightTangent := -tangent }
  | .bezier => { knot with leftTangent := tangent }

/-- The knot with another right tangent, as far as its mode lets it have one. -/
def setRightTangent [Neg R] (knot : Knot R) (tangent : Point R) : Knot R :=
  match knot.mode with
  | .linear => knot
  | .smooth => { knot with leftTangent := -tangent, rightTangent := tangent }
  | .bezier => { knot with rightTangent := tangent }

/-- The knot with its left tangent replaced; if that moves the tangent, the two
are no longer tied together. -/
def reshapeLeft [BEq R] (knot : Knot R) (tangent : Point R) : Knot R :=
  if knot.leftTangent.agrees tangent then knot
  else { knot with leftTangent := tangent, mode := .bezier }

/-- The knot with its right tangent replaced; if that moves the tangent, the two
are no longer tied together. -/
def reshapeRight [BEq R] (knot : Knot R) (tangent : Point R) : Knot R :=
  if knot.rightTangent.agrees tangent then knot
  else { knot with rightTangent := tangent, mode := .bezier }

/-- The knot without tangents. -/
def straightened [OfScientific R] (knot : Knot R) : Knot R :=
  linear knot.position

/-- The knot moved by a transform. -/
def transformed (knot : Knot Float) (t : Transform) : Knot Float :=
  { knot with
    position := t.applyPoint knot.position
    leftTangent := t.applyVector knot.leftTangent
    rightTangent := t.applyVector knot.rightTangent }

/-- The knot as stored documents have it. -/
def toJson (knot : Knot Float) : Json :=
  .obj [("position", knot.position.toJson),
    ("left_tangent", knot.leftTangent.toJson),
    ("right_tangent", knot.rightTangent.toJson), ("mode", knot.mode.toJson)]

/-- The knot of a record with all four fields. -/
def ofJson? (tree : Json) : Option (Knot Float) := do
  match ← tree.record?
    ["position", "left_tangent", "right_tangent", "mode"] with
  | [position, left, right, mode] =>
    return ⟨← Json.required Point.ofJson? position,
      ← Json.required Point.ofJson? left,
      ← Json.required Point.ofJson? right,
      ← Json.required KnotMode.ofJson? mode⟩
  | _ => none

end Knot
end MotionScene
