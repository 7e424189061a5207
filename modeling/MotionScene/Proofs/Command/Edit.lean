import MotionScene.Command.Edit
import MotionScene.Proofs.Command.Addition
import MotionScene.Proofs.Command.Conversion
import MotionScene.Proofs.Command.Copying
import MotionScene.Proofs.Command.KeyframeShift
import MotionScene.Proofs.Command.PathChange
import MotionScene.Proofs.Command.Removal
import MotionScene.Proofs.Command.Reparenting

/-!
# Every edit is lawful

Any of the commands, as it is built, either changes a well-formed document into
another one and can be replayed at will, or leaves nothing behind.
-/

namespace MotionScene
namespace Edit

/-- An edit as it is built; it remembers nothing yet. -/
inductive Fresh : Edit → Prop where
  | setProperty (targets : List OwnerId) (property : String) (value : Value) :
      Fresh (.setProperty (.new targets property value))
  | setSelection (selection : OwnerSet) : Fresh (.setSelection { selection })
  | createTrack (address : PropertyAddress) (interpolation : Interpolation)
    (keyed : Bool) :
      Fresh (.createTrack { address, interpolation, keyed })
  | removeTrack (address : PropertyAddress) : Fresh (.removeTrack { address })
  | createKeyframe (address : PropertyAddress) (keyframe : Keyframe) :
      Fresh (.createKeyframe { address, keyframe })
  | removeKeyframe (address : PropertyAddress) (frame : Int32) :
      Fresh (.removeKeyframe { address, frame })
  | moveKeyframes (selection : KeyframeSelection) (offset : Int32) :
      Fresh (.moveKeyframes { selection, offset })
  | setInterpolation (address : PropertyAddress)
    (interpolation : Interpolation) :
      Fresh (.setInterpolation { address, interpolation })
  | editPath (path : OwnerId) (edit : PathEdit) :
      Fresh (.editPath { path, edit })
  | addOwners (items : List NewOwner) : Fresh (.addOwners { items })
  | removeOwners (roots : List OwnerId) (confirmed : Bool) (label : String) :
      Fresh (.removeOwners { roots, confirmed, label })
  | reparent (moves : List (OwnerId × Slot)) : Fresh (.reparent { moves })
  | copyObjects (sources : List OwnerId) (parent : OwnerId) (index : Nat) :
      Fresh (.copyObjects { sources, parent, index })
  | convert (targets : List OwnerId) : Fresh (.convert { targets })

/-- An edit as it is built; owners that it adds are new, different, and refer to
what they may refer to in the scene. -/
structure Admissible (edit : Edit) (scene : Scene) : Prop where
  fresh : edit.Fresh
  added : ∀ command, edit = .addOwners command → command.Admissible scene

theorem Fresh.admissible
    {edit : Edit}
    (fresh : edit.Fresh)
    (addsNothing : ∀ command, edit ≠ .addOwners command)
    (scene : Scene) :
    edit.Admissible scene :=
  ⟨fresh, fun command isAddition => absurd isAddition (addsNothing command)⟩

theorem lawful
    {document : Document}
    (wellFormed : document.WellFormed)
    {edit : Edit}
    (admissible : edit.Admissible document.scene) :
    Lawful apply revert document (edit.apply document) := by
  obtain ⟨fresh, added⟩ := admissible
  cases fresh with
  | setProperty targets property value =>
      exact (SetProperty.lawful wellFormed (Scene.nodup_distinct targets)).map
        Edit.setProperty (fun _ _ => rfl) (fun _ _ => rfl)
  | setSelection =>
      exact (SetSelection.lawful wellFormed _).map Edit.setSelection
        (fun _ _ => rfl) (fun _ _ => rfl)
  | createTrack =>
      exact (CreateTrack.lawful wellFormed rfl).map Edit.createTrack
        (fun _ _ => rfl) (fun _ _ => rfl)
  | removeTrack =>
      exact (RemoveTrack.lawful wellFormed _).map Edit.removeTrack
        (fun _ _ => rfl) (fun _ _ => rfl)
  | createKeyframe =>
      exact (CreateKeyframe.lawful wellFormed _).map
        Edit.createKeyframe (fun _ _ => rfl) (fun _ _ => rfl)
  | removeKeyframe =>
      exact (RemoveKeyframe.lawful wellFormed _).map
        Edit.removeKeyframe (fun _ _ => rfl) (fun _ _ => rfl)
  | moveKeyframes =>
      exact (MoveKeyframes.lawful wellFormed _).map
        Edit.moveKeyframes (fun _ _ => rfl) (fun _ _ => rfl)
  | setInterpolation =>
      exact (SetInterpolation.lawful wellFormed _).map
        Edit.setInterpolation (fun _ _ => rfl) (fun _ _ => rfl)
  | editPath =>
      exact (EditPath.lawful wellFormed rfl).map Edit.editPath (fun _ _ => rfl)
        (fun _ _ => rfl)
  | addOwners items =>
      exact (AddOwners.lawful wellFormed rfl (added _ rfl)).map
        Edit.addOwners (fun _ _ => rfl) (fun _ _ => rfl)
  | removeOwners =>
      exact (RemoveOwners.lawful wellFormed rfl).map
        Edit.removeOwners (fun _ _ => rfl) (fun _ _ => rfl)
  | reparent =>
      exact (Reparent.lawful wellFormed _).map Edit.reparent (fun _ _ => rfl)
        (fun _ _ => rfl)
  | copyObjects =>
      exact (CopyObjects.lawful wellFormed rfl).map Edit.copyObjects
        (fun _ _ => rfl) (fun _ _ => rfl)
  | convert =>
      exact (Convert.lawful wellFormed rfl).map Edit.convert (fun _ _ => rfl)
        (fun _ _ => rfl)

end Edit
end MotionScene
