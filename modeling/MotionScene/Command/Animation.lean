import MotionScene.Command.Basic

/-!
# Animating properties

Commands that attach and detach tracks and that set, remove and move keyframes.
-/

namespace MotionScene

namespace Scene

/-- The track of a property, which has to have one. -/
def track (scene : Scene) (address : PropertyAddress) : Except Fault Track := do
  match (← scene.property address).track with
  | some track => return track
  | none => throw (.noTrack address.describe)

/-- The scene with another track, or none, on a property. -/
def setTrack
    (scene : Scene)
    (address : PropertyAddress)
    (track : Option Track) :
    Except Fault Scene :=
  scene.modifyProperty address fun property => { property with track }

/-- A property that may be animated. -/
def animatable (scene : Scene) (address : PropertyAddress) :
    Except Fault Property := do
  let property ← scene.property address
  if property.kind.isAnimatable then return property
  else throw (.notAnimatable property.kind)

end Scene

/-- Attaches a track to a property, with a first keyframe at the current frame
if asked for. -/
structure CreateTrack where
  address : PropertyAddress
  interpolation : Interpolation
  keyed : Bool
  /-- The track made by the first application. -/
  created : Option Track := none

namespace CreateTrack

/-- What the history shows, by the name of the property. -/
def label (command : CreateTrack) : String :=
  s!"Animate {command.address.property}"

/-- The track to attach: the one made before, or a new one. -/
def build (command : CreateTrack) (property : Property) (frame : Int32) :
    Except Fault Track :=
  match command.created with
  | some track => .ok track
  | none =>
    let track := Track.new command.address property.kind command.interpolation
    if command.keyed then
      (track.upsert { frame, value := property.value }).map Prod.fst
    else .ok track

/-- The scene with the track attached; a property that has one is left alone. -/
def run (command : CreateTrack) (document : Document) :
    Except Fault (CreateTrack × Scene × Outcome) := do
  let property ← document.scene.animatable command.address
  if property.track.isSome then return (command, document.scene, .noop)
  let track ← command.build property document.clock.current
  let scene ← document.scene.setTrack command.address (some track)
  return ({ command with created := some track }, scene, .changed)

/-- Attaches the track. -/
def apply (command : CreateTrack) (document : Document) :
    Step CreateTrack Document Outcome :=
  .ofScene command document (command.run document)

/-- Takes the track off again. -/
def revert (command : CreateTrack) (document : Document) :
    Step CreateTrack Document Unit :=
  .backTo command document (document.scene.setTrack command.address none)

end CreateTrack

/-- Detaches the track of a property. -/
structure RemoveTrack where
  address : PropertyAddress
  removed : Option Track := none

namespace RemoveTrack

/-- What the history shows, by the name of the property. -/
def label (command : RemoveTrack) : String :=
  s!"Remove animation of {command.address.property}"

/-- The scene without the track, which the command remembers. -/
def run (command : RemoveTrack) (scene : Scene) :
    Except Fault (RemoveTrack × Scene × Outcome) := do
  let track ← scene.track command.address
  let scene ← scene.setTrack command.address none
  return ({ command with removed := some track }, scene, .changed)

/-- Detaches the track. -/
def apply (command : RemoveTrack) (document : Document) :
    Step RemoveTrack Document Outcome :=
  .ofScene command document (command.run document.scene)

/-- Attaches the track that was removed. -/
def revert (command : RemoveTrack) (document : Document) :
    Step RemoveTrack Document Unit :=
  .backTo command document
    (document.scene.setTrack command.address command.removed)

end RemoveTrack

/-- Sets a keyframe; a property without a track gets a linear one. -/
structure CreateKeyframe where
  address : PropertyAddress
  keyframe : Keyframe
  replaced : Option Keyframe := none
  createdTrack : Bool := false

namespace CreateKeyframe

/-- What the history shows, by the name of the property and the frame. -/
def label (command : CreateKeyframe) : String :=
  s!"Key {command.address.property} at frame {command.keyframe.frame.toInt}"

/-- Whether a property has exactly this keyframe already. -/
def isSet (property : Property) (keyframe : Keyframe) : Bool :=
  match property.track.bind fun track => track.keyframe? keyframe.frame with
  | some existing => existing.agrees keyframe
  | none => false

/-- The scene with the keyframe set, its value moved within the constraints of
the property. -/
def run (command : CreateKeyframe) (scene : Scene) :
    Except Fault (CreateKeyframe × Scene × Outcome) := do
  let property ← scene.animatable command.address
  let value ← property.coerce command.keyframe.value
  let keyframe := { command.keyframe with value }
  if isSet property keyframe then return (command, scene, .noop)
  let track := property.track.getD (.new command.address property.kind .linear)
  let (track, replaced) ← track.upsert keyframe
  let scene ← scene.setTrack command.address (some track)
  return ({ command with replaced, createdTrack := property.track.isNone },
    scene, .changed)

/-- Sets the keyframe. -/
def apply (command : CreateKeyframe) (document : Document) :
    Step CreateKeyframe Document Outcome :=
  .ofScene command document (command.run document.scene)

/-- The scene without the keyframe, or with the one it replaced. -/
def back (command : CreateKeyframe) (scene : Scene) : Except Fault Scene := do
  if command.createdTrack then return ← scene.setTrack command.address none
  let track ← scene.track command.address
  match command.replaced with
  | some old => scene.setTrack command.address (some (← track.upsert old).1)
  | none =>
    scene.setTrack command.address
      (some (track.remove command.keyframe.frame).1)

/-- Takes the keyframe back, along with a track that was made for it. -/
def revert (command : CreateKeyframe) (document : Document) :
    Step CreateKeyframe Document Unit :=
  .backTo command document (command.back document.scene)

end CreateKeyframe

/-- Removes the keyframe at a frame. -/
structure RemoveKeyframe where
  address : PropertyAddress
  frame : Int32
  removed : Option Keyframe := none

namespace RemoveKeyframe

/-- What the history shows, by the name of the property and the frame. -/
def label (command : RemoveKeyframe) : String :=
  s!"Remove key of {command.address.property} at frame {command.frame.toInt}"

/-- The scene without the keyframe, which has to exist and which the command
remembers. -/
def run (command : RemoveKeyframe) (scene : Scene) :
    Except Fault (RemoveKeyframe × Scene × Outcome) := do
  let track ← scene.track command.address
  if (track.keyframe? command.frame).isNone then
    throw (.noKeyframe command.frame)
  let (track, removed) := track.remove command.frame
  let scene ← scene.setTrack command.address (some track)
  return ({ command with removed }, scene, .changed)

/-- Removes the keyframe. -/
def apply (command : RemoveKeyframe) (document : Document) :
    Step RemoveKeyframe Document Outcome :=
  .ofScene command document (command.run document.scene)

/-- The scene with the keyframe put back. -/
def back (command : RemoveKeyframe) (scene : Scene) : Except Fault Scene :=
  match command.removed with
  | some keyframe => do
    let (track, _) ← (← scene.track command.address).upsert keyframe
    scene.setTrack command.address (some track)
  | none => .ok scene

/-- Sets the keyframe that was removed. -/
def revert (command : RemoveKeyframe) (document : Document) :
    Step RemoveKeyframe Document Unit :=
  .backTo command document (command.back document.scene)

end RemoveKeyframe

/-- Changes how a track blends between keyframes. -/
structure SetInterpolation where
  address : PropertyAddress
  interpolation : Interpolation
  previous : Option Interpolation := none

namespace SetInterpolation

/-- What the history shows, by the name of the property. -/
def label (command : SetInterpolation) : String :=
  s!"Set interpolation of {command.address.property}"

/-- The scene with a track blending in a given way. -/
def store
    (scene : Scene)
    (address : PropertyAddress)
    (interpolation : Interpolation) :
    Except Fault Scene := do
  let track ← scene.track address
  scene.setTrack address (some { track with interpolation })

/-- The scene with the track blending in the new way; the same way again is no
change. -/
def run (command : SetInterpolation) (scene : Scene) :
    Except Fault (SetInterpolation × Scene × Outcome) := do
  let track ← scene.track command.address
  if track.interpolation = command.interpolation then
    return (command, scene, .noop)
  let scene ← store scene command.address command.interpolation
  return ({ command with previous := some track.interpolation },
    scene, .changed)

/-- Makes the track blend in the new way. -/
def apply (command : SetInterpolation) (document : Document) :
    Step SetInterpolation Document Outcome :=
  .ofScene command document (command.run document.scene)

/-- Makes the track blend in the old way. -/
def revert (command : SetInterpolation) (document : Document) :
    Step SetInterpolation Document Unit :=
  .backTo command document
    (match command.previous with
    | some previous => store document.scene command.address previous
    | none => .ok document.scene)

end SetInterpolation
end MotionScene
