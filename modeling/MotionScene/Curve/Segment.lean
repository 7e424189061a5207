import MotionScene.Plane.Point

/-!
# Cubic segments

A cubic curve given by its end points and two handles.  A segment can be
evaluated, cut in two and measured.
-/

namespace MotionScene

/-- A cubic curve from the first point to the last, with a handle for each. -/
structure Segment (R : Type) where
  first : Point R
  firstHandle : Point R
  lastHandle : Point R
  last : Point R
deriving DecidableEq, Repr

namespace Segment

variable {R : Type}

/-- The point of the curve at a parameter between zero and one. -/
def pointAt [Add R] [Sub R] [Mul R] [OfScientific R] (s : Segment R) (t : R) :
    Point R :=
  let u := 1.0 - t
  s.first.scale (u * u * u) + s.firstHandle.scale (3.0 * u * u * t) +
    s.lastHandle.scale (3.0 * u * t * t) + s.last.scale (t * t * t)

/-- Whether both handles sit on their end points. -/
def isLinear [BEq R] (s : Segment R) : Bool :=
  s.firstHandle.agrees s.first && s.lastHandle.agrees s.last

/-- The parts of the curve before and after a parameter, by repeated blending of
neighbours. -/
def split [Add R] [Sub R] [Mul R] (s : Segment R) (t : R) :
    Segment R × Segment R :=
  let a := s.first.lerp s.firstHandle t
  let b := s.firstHandle.lerp s.lastHandle t
  let c := s.lastHandle.lerp s.last t
  let ab := a.lerp b t
  let bc := b.lerp c t
  let middle := ab.lerp bc t
  (⟨s.first, a, ab, middle⟩, ⟨middle, bc, c, s.last⟩)

/-- How many pieces a curve is measured by. -/
def sampleCount : Nat := 64

/-- The length walked and the point reached after another piece. -/
def walk (s : Segment Float) (walked : Float × Point Float) (piece : Nat) :
    Float × Point Float :=
  let next := s.pointAt (Number.ofInt (piece + 1) / Number.ofInt sampleCount)
  (walked.1 + walked.2.distance next, next)

/-- The length of the curve: exact for a linear one, measured along chords
otherwise. -/
def length (s : Segment Float) : Float :=
  if s.isLinear then s.first.distance s.last
  else ((List.range sampleCount).foldl s.walk (0.0, s.first)).1

end Segment
end MotionScene
