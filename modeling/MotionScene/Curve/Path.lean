import MotionScene.Agreement
import MotionScene.Curve.Segment
import MotionScene.Curve.Knot

/-!
# Paths

A path runs through its knots in order; a closed path also runs from the last
knot back to the first.  Between two neighbouring knots lies one cubic segment.
-/

namespace MotionScene

/-- The knots of a path, and whether the last is joined to the first. -/
structure Path (R : Type) where
  knots : List (Knot R)
  closed : Bool
deriving DecidableEq, Repr

namespace Path

variable {R : Type}

/-- The path without knots. -/
def empty : Path R := ⟨[], false⟩

/-- Whether both paths have the same knots, coordinates compared as numbers. -/
def agrees [BEq R] (p q : Path R) : Bool :=
  Agreement.list Knot.agrees p.knots q.knots && p.closed = q.closed

/-- How many segments the path has. -/
def segmentCount (path : Path R) : Nat :=
  if path.knots.length ≤ 1 then 0
  else if path.closed then path.knots.length
  else path.knots.length - 1

/-- The segment between two knots. -/
def join [Add R] (a b : Knot R) : Segment R :=
  ⟨a.position, a.rightHandle, b.leftHandle, b.position⟩

/-- The segment that starts at the knot of the given position. -/
def segment? [Add R] (path : Path R) (i : Nat) : Option (Segment R) :=
  if i < path.segmentCount then do
    let a ← path.knots[i]?
    let b ← path.knots[(i + 1) % path.knots.length]?
    return join a b
  else none

/-- All segments in order. -/
def segments [Add R] (path : Path R) : List (Segment R) :=
  (List.range path.segmentCount).filterMap path.segment?

/-- The length of all segments together. -/
def length (path : Path Float) : Float :=
  path.segments.foldl (fun total s => total + s.length) 0.0

/-! ## Smooth knots -/

/-- Whether the ends of the path are neighbours of each other. -/
def wraps (path : Path R) : Bool :=
  path.closed && 2 < path.knots.length

/-- The position of the knot before one. -/
def previous? (path : Path R) (i : Nat) : Option (Point R) :=
  if 0 < i then path.knots[i - 1]?.map Knot.position
  else if path.wraps then path.knots.getLast?.map Knot.position
  else none

/-- The position of the knot after one. -/
def next? (path : Path R) (i : Nat) : Option (Point R) :=
  if i + 1 < path.knots.length then path.knots[i + 1]?.map Knot.position
  else if path.wraps then path.knots.head?.map Knot.position
  else none

/-- The right tangent that leads smoothly past a knot between its neighbours. -/
def smoothTangent (position : Point Float) :
    Option (Point Float) → Option (Point Float) → Point Float
  | some previous, some next =>
    let reach := (position.distance previous + position.distance next) / 6.0
    (next - previous).normalized.scale reach
  | none, some next => (next - position).scale (1.0 / 3.0)
  | some previous, none => (position - previous).scale (1.0 / 3.0)
  | none, none => .zero

/-- A knot of the path made smooth where it stands. -/
def smoothed (path : Path Float) (i : Nat) (knot : Knot Float) : Knot Float :=
  .smooth knot.position
    (smoothTangent knot.position (path.previous? i) (path.next? i))

/-! ## Stored form -/

/-- The path as stored documents have it. -/
def toJson (path : Path Float) : Json :=
  .obj [("knots", .ofList Knot.toJson path.knots),
    ("closed", .bool path.closed)]

/-- The path of a record with both fields. -/
def ofJson? (tree : Json) : Option (Path Float) := do
  match ← tree.record? ["knots", "closed"] with
  | [knots, closed] =>
    return ⟨← Json.required (Json.list? Knot.ofJson?) knots,
      ← Json.required Json.bool? closed⟩
  | _ => none

end Path
end MotionScene
