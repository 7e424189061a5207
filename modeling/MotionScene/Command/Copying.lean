import MotionScene.Command.Basic

/-!
# Copying objects

Objects are copied with everything beneath them.  Copies get new numbers, and
references between copied owners point at the copies.
-/

namespace MotionScene

/-- New numbers by old ones. -/
abbrev Renumbering := Std.ExtTreeMap OwnerId OwnerId

namespace Renumbering

/-- Consecutive new numbers for a list of owners. -/
def consecutive (start : Nat) (ids : List OwnerId) : Renumbering :=
  Std.ExtTreeMap.ofList
    ((ids.zipIdx start).map fun (id, number) => (id, OwnerId.mk number))

/-- The new number of an owner, or its own if it has no new one. -/
def image (renumbering : Renumbering) (id : OwnerId) : OwnerId :=
  renumbering.getD id id

/-- A property of an owner that is now numbered differently. -/
def property
    (renumbering : Renumbering)
    (owner : OwnerId)
    (property : Property) :
    Property :=
  { property with
    value := match property.value with
      | .reference (some target) => .reference (some (image renumbering target))
      | value => value
    track := property.track.map fun track =>
      { track with target := ⟨owner, property.name⟩ } }

/-- The copy of an owner; a parent that is not copied is dropped. -/
def owner (renumbering : Renumbering) (owner : Owner) : Owner :=
  let id := image renumbering owner.id
  { owner with
    id
    properties := owner.properties.map (property renumbering id)
    parent := owner.parent.bind fun parent => renumbering[parent]?
    children := owner.children.map (image renumbering)
    tags := owner.tags.map (image renumbering) }

end Renumbering

/-- Copies objects under a parent. -/
structure CopyObjects where
  sources : List OwnerId
  parent : OwnerId
  index : Nat
  /-- The copies of the topmost sources. -/
  copies : List OwnerId := []
  transition : Option Transition := none

namespace CopyObjects

/-- What the history shows. -/
def label (_ : CopyObjects) : String :=
  "Copy"

/-- Attaches owners next to each other. -/
def attachAll (parent : OwnerId) (index : Nat) : List OwnerId → Change Unit
  | [] => pure ()
  | id :: rest => do
    Change.attach id (.child parent index)
    attachAll parent (index + 1) rest

/-- Registers copies and attaches the topmost ones. -/
def insertAll
    (command : CopyObjects)
    (owners : List Owner)
    (copies : List OwnerId) :
    Change Unit := do
  Change.scene fun scene => owners.foldl Scene.insert scene
  attachAll command.parent command.index copies

/-- Refuses a parent that is no object and sources that are none. -/
def check (command : CopyObjects) (scene : Scene) : Except Fault Unit := do
  if !(← scene.owner command.parent).kind.isObject then
    throw (.invalidParent command.parent "copies must go under an object")
  match command.sources.find? fun id => !scene.isOf .object id with
  | some id => throw (.invalidParent id "only existing objects can be copied")
  | none => return ()

/-- Copies the topmost sources for the first time.  Numbers are used up even if
that fails. -/
def copyTop (command : CopyObjects) (document : Document) (top : List OwnerId) :
    Step CopyObjects Document Outcome :=
  let scene := document.scene
  let members := top.flatMap scene.subtree
  let renumbering := Renumbering.consecutive document.nextId members
  let owners := (renumbering.keys.filterMap scene.owner?).map renumbering.owner
  let copies := top.filterMap fun id => renumbering[id]?
  let touched := Std.ExtTreeSet.ofList
    (command.parent :: renumbering.toList.map Prod.snd)
  match document.allocateMany members.length with
  | .error fault => .failed command document fault
  | .ok allocated =>
    .first command allocated touched (command.insertAll owners copies)
      fun transition => { command with copies, transition := some transition }

/-- Copies the topmost sources; with none to copy there is no change. -/
def apply (command : CopyObjects) (document : Document) :
    Step CopyObjects Document Outcome :=
  match command.transition with
  | some transition => .again command document transition
  | none =>
    match command.check document.scene with
    | .error fault => .failed command document fault
    | .ok () =>
      let top := document.scene.topLevel command.sources
      if top.isEmpty then .idle command document
      else command.copyTop document top

/-- Takes the copies away. -/
def revert (command : CopyObjects) (document : Document) :
    Step CopyObjects Document Unit :=
  .back command document command.transition

end CopyObjects
end MotionScene
