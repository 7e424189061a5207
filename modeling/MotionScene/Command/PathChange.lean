import MotionScene.Command.Basic
import MotionScene.Curve.Edit

/-!
# Editing paths

A command that edits the geometry of one path and remembers it before and after.
-/

namespace MotionScene

/-- Edits the geometry of a path. -/
structure EditPath where
  path : OwnerId
  edit : PathEdit
  /-- The geometry before and after the first application. -/
  states : Option (Path Float × Path Float) := none

namespace EditPath

/-- What the history shows, which the edit says. -/
def label (command : EditPath) : String :=
  command.edit.label

/-- The geometry before and after: what it was the first time, or what the edit
makes now. -/
def sides (command : EditPath) (scene : Scene) :
    Except Fault (Path Float × Path Float) :=
  match command.states with
  | some states => .ok states
  | none => do
    let before ← scene.geometry command.path
    return (before, ← command.edit.run before)

/-- Gives the path its new geometry; the same geometry again is no change. -/
def apply (command : EditPath) (document : Document) :
    Step EditPath Document Outcome :=
  match command.sides document.scene with
  | .error fault => .failed command document fault
  | .ok (before, after) =>
    if before.agrees after then .idle command document
    else
      match document.scene.setGeometry command.path after with
      | .ok scene =>
        ⟨{ command with states := some (before, after) },
          { document with scene }, .ok .changed⟩
      | .error fault => .failed command document fault

/-- Gives the path the geometry it had before. -/
def revert (command : EditPath) (document : Document) :
    Step EditPath Document Unit :=
  match command.states with
  | none => ⟨command, document, .ok ()⟩
  | some (before, _) =>
    .backTo command document (document.scene.setGeometry command.path before)

end EditPath
end MotionScene
