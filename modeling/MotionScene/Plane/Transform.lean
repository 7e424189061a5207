import MotionScene.Plane.Point
import MotionScene.Number.Angle

/-!
# Transforms of the plane

A transform scales, then rotates about the origin, then translates.
-/

namespace MotionScene

/-- A transform of the plane; the rotation is in degrees, counter-clockwise. -/
structure Transform where
  translation : Point Float
  scale : Point Float
  rotation : Float
deriving DecidableEq, Repr

namespace Transform

/-- The transform that moves nothing. -/
def identity : Transform :=
  ⟨.zero, ⟨1.0, 1.0⟩, 0.0⟩

/-- A translation. -/
def translating (offset : Point Float) : Transform :=
  { identity with translation := offset }

/-- A scaling about the origin. -/
def scaling (factors : Point Float) : Transform :=
  { identity with scale := factors }

/-- A rotation about the origin. -/
def rotating (degrees : Float) : Transform :=
  { identity with rotation := degrees }

/-- Whether all parts equal those of the identity as numbers. -/
def isIdentity (t : Transform) : Bool :=
  t.translation.agrees identity.translation && t.scale.agrees identity.scale &&
    t.rotation == identity.rotation

/-- Degrees as radians: one degree is the double nearest to the circle constant
over 180. -/
def radians (degrees : Float) : Float :=
  degrees * 0.017453292519943295

/-- The scaling and rotation alone, as offsets are moved. -/
def applyVector (t : Transform) (v : Point Float) : Point Float :=
  let sx := v.x * t.scale.x
  let sy := v.y * t.scale.y
  let angle := radians t.rotation
  let sine := Number.sine angle
  let cosine := Number.cosine angle
  ⟨sx * cosine - sy * sine, sx * sine + sy * cosine⟩

/-- The whole transform, as positions are moved. -/
def applyPoint (t : Transform) (p : Point Float) : Point Float :=
  t.applyVector p + t.translation

end Transform
end MotionScene
