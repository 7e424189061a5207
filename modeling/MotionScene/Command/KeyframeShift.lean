import MotionScene.Command.Animation

/-!
# Moving keyframes

Selected keyframes of several tracks move together by an offset.  Everything is
planned before anything changes.
-/

namespace MotionScene

/-- A finite set of frames. -/
abbrev FrameSet := Std.ExtTreeSet Int32

/-- Selected frames by property. -/
abbrev KeyframeSelection := Std.ExtTreeMap PropertyAddress FrameSet

/-- Moves selected keyframes by an offset. -/
structure MoveKeyframes where
  selection : KeyframeSelection
  offset : Int32
  /-- The keyframes the tracks had, in the order of changes. -/
  previous : List (PropertyAddress × List Keyframe) := []

namespace MoveKeyframes

/-- How many keyframes are selected. -/
def count (command : MoveKeyframes) : Nat :=
  (command.selection.toList.flatMap fun (_, frames) => frames.toList).length

/-- What the history shows, by the number of keyframes and the offset. -/
def label (command : MoveKeyframes) : String :=
  s!"Move {command.count} keyframe(s) by {command.offset.toInt}"

/-- A frame moved by an offset, if it stays within 32 bits. -/
def shift (frame offset : Int32) : Except Fault Int32 :=
  let moved := frame.toInt + offset.toInt
  if -2147483648 ≤ moved ∧ moved ≤ 2147483647 then .ok (Int32.ofInt moved)
  else .error (.frameOverflow frame offset)

/-- A keyframe after the move. -/
def shiftSelected (frames : FrameSet) (offset : Int32) (keyframe : Keyframe) :
    Except Fault Keyframe :=
  if keyframe.frame ∈ frames then
    (shift keyframe.frame offset).map fun frame => { keyframe with frame }
  else .ok keyframe

/-- The keyframes of a track before and after the move. -/
def planTrack
    (scene : Scene)
    (offset : Int32)
    (address : PropertyAddress)
    (frames : FrameSet) :
    Except Fault (PropertyAddress × List Keyframe × List Keyframe) := do
  let track ← scene.track address
  match frames.toList.find? fun frame => (track.keyframe? frame).isNone with
  | some frame => throw (.noKeyframe frame)
  | none =>
    let moved :=
      Track.sortKeyframes (← track.keyframes.mapM (shiftSelected frames offset))
    match Track.firstRepeat? moved with
    | some frame => throw (.keyframeExists frame)
    | none => return (address, track.keyframes, moved)

/-- The keyframes of all tracks before and after the move. -/
def plan (command : MoveKeyframes) (scene : Scene) :
    Except Fault (List (PropertyAddress × List Keyframe × List Keyframe)) :=
  command.selection.toList.mapM fun (address, frames) =>
    planTrack scene command.offset address frames

/-- The scene with other keyframes on a track. -/
def store
    (scene : Scene)
    (address : PropertyAddress)
    (keyframes : List Keyframe) :
    Except Fault Scene := do
  let (track, _) ← (← scene.track address).replaceAll keyframes
  scene.setTrack address (some track)

/-- Stores keyframes on tracks one after the other, up to the first failure;
tells how many tracks were done. -/
def storeAll (scene : Scene) :
    List (PropertyAddress × List Keyframe) → Scene × Nat × Except Fault Unit
  | [] => (scene, 0, .ok ())
  | (address, keyframes) :: rest =>
    match store scene address keyframes with
    | .ok stored =>
      let (scene, done, result) := storeAll stored rest
      (scene, done + 1, result)
    | .error fault => (scene, 0, .error fault)

/-- Moves the keyframes; with none selected or no offset there is no change. -/
def apply (command : MoveKeyframes) (document : Document) :
    Step MoveKeyframes Document Outcome :=
  if command.offset = 0 ∨ command.count = 0 then .idle command document
  else
    match command.plan document.scene with
    | .error fault => .failed command document fault
    | .ok plan =>
      let (scene, done, result) := storeAll document.scene
        (plan.map fun (address, _, moved) => (address, moved))
      ⟨{ command with
        previous :=
          (plan.take done).map fun (address, old, _) => (address, old) },
        { document with scene }, result.map fun _ => .changed⟩

/-- Puts the old keyframes back, last track first. -/
def revert (command : MoveKeyframes) (document : Document) :
    Step MoveKeyframes Document Unit :=
  let (scene, _, result) := storeAll document.scene command.previous.reverse
  ⟨command, { document with scene }, result⟩

end MoveKeyframes
end MotionScene
