import MotionScene.Scene.Basic

/-!
# Checkpoints

A checkpoint remembers some owners of a scene and its lists, so that they can be
put back.  A transition remembers them before and after a change.
-/

namespace MotionScene

/-- Some owners of a scene, absent ones included, and its lists. -/
structure Checkpoint where
  owners : List (OwnerId × Option Owner)
  styles : List OwnerId
  tools : List OwnerId
  selection : OwnerSet
deriving DecidableEq

namespace Checkpoint

/-- Remembers the owners of a set. -/
def capture (scene : Scene) (touched : OwnerSet) : Checkpoint :=
  ⟨touched.toList.map fun id => (id, scene.owner? id), scene.styles,
    scene.tools, scene.selection⟩

/-- Puts a remembered owner back, or removes one that was absent. -/
def restoreOwner (scene : Scene) : OwnerId × Option Owner → Scene
  | (_, some owner) => scene.insert owner
  | (id, none) => scene.erase id

/-- Puts everything remembered back. -/
def restore (checkpoint : Checkpoint) (scene : Scene) : Scene :=
  { checkpoint.owners.foldl restoreOwner scene with
    styles := checkpoint.styles
    tools := checkpoint.tools
    selection := checkpoint.selection }

end Checkpoint

/-- Some owners and the lists of a scene before and after a change. -/
structure Transition where
  before : Checkpoint
  after : Checkpoint
deriving DecidableEq

namespace Transition

/-- Remembers the owners of a set on both sides of a change. -/
def between (before after : Scene) (touched : OwnerSet) : Transition :=
  ⟨.capture before touched, .capture after touched⟩

/-- Makes the change again. -/
def redo (transition : Transition) (scene : Scene) : Scene :=
  transition.after.restore scene

/-- Takes the change back. -/
def undo (transition : Transition) (scene : Scene) : Scene :=
  transition.before.restore scene

end Transition
end MotionScene
