import MotionScene.Track.Basic

/-!
# Evaluation of tracks

The value of a track at a frame: a keyframe's own value where there is one, the
nearest value outside the keyed range, and a blend of the two neighbours in
between.
-/

namespace MotionScene
namespace Track

/-- A frame as a double. -/
def frameFloat (frame : Int32) : Float :=
  Number.ofInt frame.toInt

/-- One component of the cubic between two values with given slopes. -/
def hermiteComponent (span t start startSlope stop stopSlope : Float) : Float :=
  let t2 := t * t
  let t3 := t2 * t
  let h00 := 2.0 * t3 - 3.0 * t2 + 1.0
  let h10 := t3 - 2.0 * t2 + t
  let h01 := -2.0 * t3 + 3.0 * t2
  let h11 := t3 - t2
  h00 * start + h10 * span * startSlope + h01 * stop + h11 * span * stopSlope

/-- The cubic of every component, as far as all four lists go. -/
def hermiteComponents (span t : Float) :
    List Float → List Float → List Float → List Float → List Float
  | start :: starts, startSlope :: startSlopes, stop :: stops,
      stopSlope :: stopSlopes =>
    hermiteComponent span t start startSlope stop stopSlope ::
      hermiteComponents span t starts startSlopes stops stopSlopes
  | _, _, _, _ => []

/-- The value between two keyframes on the cubic with their slopes; missing
slopes are zero. -/
def hermite (kind : ValueKind) (k0 k1 : Keyframe) (span t : Float) : Value :=
  let starts := k0.value.components
  let flat := List.replicate starts.length 0.0
  let startSlopes := (k0.tangents.map Tangents.outgoing).getD flat
  let stopSlopes := (k1.tangents.map Tangents.incoming).getD flat
  (Value.ofComponents? kind
    (hermiteComponents span t starts startSlopes k1.value.components
      stopSlopes)).getD k0.value

/-- The value at a frame between two keyframes. -/
def between (track : Track) (k0 k1 : Keyframe) (frame : Int32) : Value :=
  if track.kind.isInterpolable then
    let span := frameFloat k1.frame - frameFloat k0.frame
    let t := (frameFloat frame - frameFloat k0.frame) / span
    match track.interpolation with
    | .step => k0.value
    | .linear => k0.value.lerp k1.value t
    | .smoothCubic => hermite track.kind k0 k1 span t
  else k0.value

/-- The value at a frame; a track without keyframes has none. -/
def evaluate (track : Track) (frame : Int32) : Option Value := do
  let first ← track.keyframes.head?
  let last ← track.keyframes.getLast?
  if frame ≤ first.frame then return first.value
  if last.frame ≤ frame then return last.value
  let position := countUpTo track.keyframes frame
  let k0 ← track.keyframes[position - 1]?
  let k1 ← track.keyframes[position]?
  if k0.frame = frame then return k0.value
  return track.between k0 k1 frame

end Track
end MotionScene
