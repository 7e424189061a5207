import MotionScene.Curve.Path
import MotionScene.Fault
import Std.Data.ExtTreeMap
import Std.Data.ExtTreeSet

/-!
# Edits of paths

An edit makes a new path from an old one.  Edits address knots and segments by
position; a position that the path does not have is refused.
-/

namespace MotionScene

/-- A finite set of positions. -/
abbrev IndexSet := Std.ExtTreeSet Nat

namespace Path

variable {R : Type}

/-- Refuses the least position at or past the limit, if there is one. -/
def checkBelow (path : Path R) (limit : Nat) (positions : List Nat) :
    Except Fault Unit :=
  match positions.find? (limit ≤ ·) with
  | some position => .error (.invalidKnotIndex position path.knots.length)
  | none => .ok ()

/-- The path with every knot at one of the positions changed. -/
def changedAt
    (path : Path R)
    (positions : IndexSet)
    (change : Nat → Knot R → Knot R) :
    Except Fault (Path R) := do
  path.checkBelow path.knots.length positions.toList
  return { path with
    knots := path.knots.mapIdx fun i knot =>
      if i ∈ positions then change i knot else knot }

/-- The path with knots put before a position; the position after the last knot
is allowed. -/
def inserted (path : Path R) (position : Nat) (knots : List (Knot R)) :
    Except Fault (Path R) :=
  if position ≤ path.knots.length then
    .ok { path with
      knots := path.knots.take position ++ knots ++ path.knots.drop position }
  else .error (.invalidKnotIndex position path.knots.length)

/-- The path without the knots at the positions. -/
def removed (path : Path R) (positions : IndexSet) : Except Fault (Path R) := do
  path.checkBelow path.knots.length positions.toList
  return { path with
    knots :=
      (path.knots.mapIdx fun i knot =>
        if i ∈ positions then none else some knot).filterMap id }

/-- The path with some knots replaced. -/
def modified (path : Path R) (knots : Std.ExtTreeMap Nat (Knot R)) :
    Except Fault (Path R) := do
  path.checkBelow path.knots.length knots.keys
  return { path with
    knots := path.knots.mapIdx fun i knot => knots.getD i knot }

/-- The knot at a position made smooth where it stands. -/
def smoothKnot (path : Path Float) (position : Nat) :
    Except Fault (Knot Float) :=
  match path.knots[position]? with
  | some knot => .ok (path.smoothed position knot)
  | none => .error (.invalidKnotIndex position path.knots.length)

/-! ## Subdivision -/

/-- The segment of a position, if it is to be cut. -/
def cut? [Add R] (path : Path R) (cuts : IndexSet) (i : Nat) :
    Option (Segment R) :=
  if i ∈ cuts then path.segment? i else none

/-- The position before one, the last one coming before the first. -/
def before (path : Path R) (i : Nat) : Nat :=
  (i + path.knots.length - 1) % path.knots.length

variable [Add R] [Sub R] [Mul R] [BEq R] [OfScientific R]

/-- The knot in the middle of a segment. -/
def middleKnot (s : Segment R) : Knot R :=
  if s.isLinear then .linear (s.first.midpoint s.last)
  else
    let (left, right) := s.split 0.5
    ⟨left.last, left.lastHandle - left.last,
      right.firstHandle - left.last, .smooth⟩

/-- The knot at the start of a segment that is cut in the middle. -/
def reshapedStart (s : Segment R) (knot : Knot R) : Knot R :=
  if s.isLinear then knot
  else
    let (left, _) := s.split 0.5
    knot.reshapeRight (left.firstHandle - left.first)

/-- The knot at the end of a segment that is cut in the middle. -/
def reshapedEnd (s : Segment R) (knot : Knot R) : Knot R :=
  if s.isLinear then knot
  else
    let (_, right) := s.split 0.5
    knot.reshapeLeft (right.lastHandle - right.last)

/-- A knot after the segments on its two sides are cut. -/
def reshaped (path : Path R) (cuts : IndexSet) (i : Nat)
    (knot : Knot R) : Knot R :=
  let knot :=
    ((path.cut? cuts (path.before i)).map (reshapedEnd · knot)).getD knot
  ((path.cut? cuts i).map (reshapedStart · knot)).getD knot

/-- The path with a knot in the middle of each listed segment, drawn as before:
handles next to a cut shrink, and the new knot of a curved segment is smooth. -/
def subdivided (path : Path R) (cuts : IndexSet) : Except Fault (Path R) := do
  path.checkBelow path.segmentCount cuts.toList
  return { path with
    knots := (path.knots.mapIdx fun i knot =>
      path.reshaped cuts i knot ::
        ((path.cut? cuts i).map middleKnot).toList).flatten }

end Path

/-- An edit of a path. -/
inductive PathEdit where
  | add (position : Nat) (knots : List (Knot Float))
  | remove (positions : IndexSet)
  | modify (knots : Std.ExtTreeMap Nat (Knot Float))
  | transform (positions : IndexSet) (transform : Transform)
  | subdivide (cuts : IndexSet)
  | makeSmooth (positions : IndexSet)
  | makeLinear (positions : IndexSet)
  | setMode (positions : IndexSet) (mode : KnotMode)
  | setClosed (closed : Bool)

namespace PathEdit

/-- The path an edit makes. -/
def run (edit : PathEdit) (path : Path Float) : Except Fault (Path Float) :=
  match edit with
  | add position knots => path.inserted position knots
  | remove positions => path.removed positions
  | modify knots => path.modified knots
  | transform positions t =>
    path.changedAt positions fun _ knot => knot.transformed t
  | subdivide cuts => path.subdivided cuts
  | makeSmooth positions => path.changedAt positions path.smoothed
  | makeLinear positions =>
    path.changedAt positions fun _ knot => knot.straightened
  | setMode positions mode =>
    path.changedAt positions fun _ knot => { knot with mode }
  | setClosed closed => .ok { path with closed }

/-- What an edit is called in the history. -/
def label : PathEdit → String
  | add _ _ => "Add points"
  | remove _ => "Remove points"
  | modify _ => "Modify points"
  | transform _ _ => "Transform points"
  | subdivide _ => "Subdivide"
  | makeSmooth _ => "Make smooth"
  | makeLinear _ => "Make linear"
  | setMode _ _ => "Set knot mode"
  | setClosed true => "Close path"
  | setClosed false => "Open path"

end PathEdit
end MotionScene
