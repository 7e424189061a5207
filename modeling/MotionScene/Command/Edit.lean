import MotionScene.Command.Addition
import MotionScene.Command.Assignment
import MotionScene.Command.Conversion
import MotionScene.Command.Copying
import MotionScene.Command.KeyframeShift
import MotionScene.Command.PathChange
import MotionScene.Command.Removal
import MotionScene.Command.Reparenting

/-!
# Edits

The edits of a document: every command there is.
-/

namespace MotionScene

/-- A command on documents. -/
inductive Edit where
  | setProperty (command : SetProperty)
  | setSelection (command : SetSelection)
  | createTrack (command : CreateTrack)
  | removeTrack (command : RemoveTrack)
  | createKeyframe (command : CreateKeyframe)
  | removeKeyframe (command : RemoveKeyframe)
  | moveKeyframes (command : MoveKeyframes)
  | setInterpolation (command : SetInterpolation)
  | editPath (command : EditPath)
  | addOwners (command : AddOwners)
  | removeOwners (command : RemoveOwners)
  | reparent (command : Reparent)
  | copyObjects (command : CopyObjects)
  | convert (command : Convert)

namespace Edit

/-- What the history shows for an edit. -/
def label : Edit → String
  | setProperty command => command.label
  | setSelection command => command.label
  | createTrack command => command.label
  | removeTrack command => command.label
  | createKeyframe command => command.label
  | removeKeyframe command => command.label
  | moveKeyframes command => command.label
  | setInterpolation command => command.label
  | editPath command => command.label
  | addOwners command => command.label
  | removeOwners command => command.label
  | reparent command => command.label
  | copyObjects command => command.label
  | convert command => command.label

/-- Carries an edit out, with whatever it has to remember. -/
def apply (edit : Edit) (document : Document) : Step Edit Document Outcome :=
  match edit with
  | setProperty command => (command.apply document).map setProperty
  | setSelection command => (command.apply document).map setSelection
  | createTrack command => (command.apply document).map createTrack
  | removeTrack command => (command.apply document).map removeTrack
  | createKeyframe command => (command.apply document).map createKeyframe
  | removeKeyframe command => (command.apply document).map removeKeyframe
  | moveKeyframes command => (command.apply document).map moveKeyframes
  | setInterpolation command => (command.apply document).map setInterpolation
  | editPath command => (command.apply document).map editPath
  | addOwners command => (command.apply document).map addOwners
  | removeOwners command => (command.apply document).map removeOwners
  | reparent command => (command.apply document).map reparent
  | copyObjects command => (command.apply document).map copyObjects
  | convert command => (command.apply document).map convert

/-- Takes an edit back that was carried out. -/
def revert (edit : Edit) (document : Document) : Step Edit Document Unit :=
  match edit with
  | setProperty command => (command.revert document).map setProperty
  | setSelection command => (command.revert document).map setSelection
  | createTrack command => (command.revert document).map createTrack
  | removeTrack command => (command.revert document).map removeTrack
  | createKeyframe command => (command.revert document).map createKeyframe
  | removeKeyframe command => (command.revert document).map removeKeyframe
  | moveKeyframes command => (command.revert document).map moveKeyframes
  | setInterpolation command => (command.revert document).map setInterpolation
  | editPath command => (command.revert document).map editPath
  | addOwners command => (command.revert document).map addOwners
  | removeOwners command => (command.revert document).map removeOwners
  | reparent command => (command.revert document).map reparent
  | copyObjects command => (command.revert document).map copyObjects
  | convert command => (command.revert document).map convert

instance : Reversible Edit Document where
  label := label
  apply := apply
  revert := revert

end Edit
end MotionScene
