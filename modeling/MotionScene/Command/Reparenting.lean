import MotionScene.Command.Basic

/-!
# Moving owners to other slots

Moves happen in order, and positions refer to the lists as they are at the time
of each move.  When a move fails, the ones before it are unwound.
-/

namespace MotionScene

/-- Moves owners to other slots. -/
structure Reparent where
  moves : List (OwnerId × Slot)
  /-- The slots the owners came from, last move first. -/
  previous : List (OwnerId × Slot) := []

namespace Reparent

/-- What the history shows. -/
def label (_ : Reparent) : String :=
  "Reparent"

/-- Moves one owner and tells where it came from; an owner that cannot be
attached goes back. -/
def moveOne (scene : Scene) (id : OwnerId) (slot : Slot) :
    Scene × Except Fault Slot :=
  match scene.detach id with
  | .error fault => (scene, .error fault)
  | .ok (detached, old) =>
    match detached.attach id slot with
    | .ok attached => (attached, .ok old)
    | .error fault =>
      match detached.attach id old with
      | .ok restored => (restored, .error fault)
      | .error second => (detached, .error second)

/-- Moves owners back, last move first, up to the first failure. -/
def unwind (scene : Scene) : List (OwnerId × Slot) → Scene × Except Fault Unit
  | [] => (scene, .ok ())
  | (id, old) :: rest =>
    match scene.detach id with
    | .error fault => (scene, .error fault)
    | .ok (detached, _) =>
      match detached.attach id old with
      | .ok attached => unwind attached rest
      | .error fault => (detached, .error fault)

/-- Moves owners in order; what was done before is given last first, and unwound
on a failure. -/
def moveAll (scene : Scene) (done : List (OwnerId × Slot)) :
    List (OwnerId × Slot) → Scene × Except Fault (List (OwnerId × Slot))
  | [] => (scene, .ok done)
  | (id, slot) :: rest =>
    match moveOne scene id slot with
    | (moved, .ok old) => moveAll moved ((id, old) :: done) rest
    | (left, .error fault) =>
      let (unwound, result) := unwind left done
      (unwound, result.bind fun _ => .error fault)

/-- Moves the owners; if all of them are back in the slots they came from, there
is no change. -/
def apply (command : Reparent) (document : Document) :
    Step Reparent Document Outcome :=
  match moveAll document.scene [] command.moves with
  | (scene, .error fault) => ⟨command, { document with scene }, .error fault⟩
  | (scene, .ok done) =>
    if done.all fun (id, old) => scene.slotOf id = some old then
      ⟨command, { document with scene }, .ok .noop⟩
    else
      ⟨{ command with previous := done }, { document with scene }, .ok .changed⟩

/-- Moves the owners back to the slots they came from. -/
def revert (command : Reparent) (document : Document) :
    Step Reparent Document Unit :=
  let (scene, result) := unwind document.scene command.previous
  ⟨command, { document with scene }, result⟩

end Reparent
end MotionScene
