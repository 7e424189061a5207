import MotionScene.Identifier
import MotionScene.Value.Kind

/-!
# Faults

Everything that can go wrong when a scene is read or changed, and how each cause
is worded.
-/

namespace MotionScene

/-- Why a scene could not be read or changed. -/
inductive Fault where
  | typeMismatch (property : String) (expected found : ValueKind)
  | outOfRange (property detail : String)
  | danglingReference (count : Nat)
  | nothingToUndo
  | nothingToRedo
  | historyCorruption (label reason : String)
  | unknownOwner (owner : OwnerId)
  | unknownProperty (owner : OwnerId) (property : String)
  | notAnimatable (kind : ValueKind)
  | noTrack (property : String)
  | keyframeExists (frame : Int32)
  | noKeyframe (frame : Int32)
  | frameOverflow (frame offset : Int32)
  | invalidReference (property : String) (target : OwnerId)
  | invalidKnotIndex (index count : Nat)
  | notAPath (owner : OwnerId)
  | cyclicParent (owner : OwnerId)
  | invalidParent (owner : OwnerId) (reason : String)
  | groupState (detail : String)
  | invalid (detail : String)
  /-- The program stops: it counts past the last number there is, or looks for
  an entry outside a list. -/
  | halted (detail : String)
deriving DecidableEq, Repr

namespace Fault

/-- The wording of a fault. -/
def message : Fault → String
  | typeMismatch property expected found =>
    s!"type mismatch on '{property}': expected {expected.name}, " ++
      s!"found {found.name}"
  | outOfRange property detail =>
    s!"value of '{property}' is out of range: {detail}"
  | danglingReference count =>
    s!"removal would leave {count} owner(s) with a dangling reference"
  | nothingToUndo => "nothing to undo"
  | nothingToRedo => "nothing to redo"
  | historyCorruption label reason =>
    s!"history corrupted while replaying '{label}': {reason}"
  | unknownOwner owner => s!"unknown owner {owner.describe}"
  | unknownProperty owner property =>
    s!"owner {owner.describe} has no property '{property}'"
  | notAnimatable kind => s!"properties of kind {kind.name} cannot be animated"
  | noTrack property => s!"property '{property}' has no track"
  | keyframeExists frame => s!"a keyframe already exists at frame {frame.toInt}"
  | noKeyframe frame => s!"no keyframe at frame {frame.toInt}"
  | frameOverflow frame offset =>
    s!"moving the keyframe at frame {frame.toInt} by {offset.toInt} " ++
      "leaves the frame range"
  | invalidReference property target =>
    s!"reference from '{property}' to {target.describe} is not allowed"
  | invalidKnotIndex index count =>
    s!"knot index {index} out of bounds for path with {count} knots"
  | notAPath owner => s!"owner {owner.describe} is not a path"
  | cyclicParent owner => s!"cannot move {owner.describe} beneath itself"
  | invalidParent owner reason =>
    s!"invalid parent for {owner.describe}: {reason}"
  | groupState detail => s!"macro error: {detail}"
  | invalid detail => s!"invalid document: {detail}"
  | halted detail => detail

end Fault
end MotionScene
