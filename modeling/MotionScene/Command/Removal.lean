import MotionScene.Command.Basic

/-!
# Removing owners

Owners are removed with everything beneath them.  References from outside block
the removal, unless it is confirmed; then they are cleared.
-/

namespace MotionScene

/-- Removes owners with everything beneath them. -/
structure RemoveOwners where
  roots : List OwnerId
  confirmed : Bool
  label : String := "Remove"
  transition : Option Transition := none

namespace RemoveOwners

/-- Removes the styles of a scene that nothing refers to. -/
def unusedStyles (scene : Scene) : RemoveOwners :=
  { roots := scene.unusedStyles, confirmed := false,
    label := "Remove unused styles" }

/-- The scene without the owners of a set, selected ones included. -/
def eraseAll (scene : Scene) (ids : OwnerSet) : Scene :=
  { ids.toList.foldl Scene.erase scene with
    selection := scene.selection.filter fun id => !(id ∈ ids) }

/-- The owners that the removal may change: those removed, those that refer to
them, and the parents of the topmost ones. -/
def touched (scene : Scene) (top : List OwnerId) (closure holders : OwnerSet) :
    OwnerSet :=
  Std.ExtTreeSet.ofList (closure.toList ++ holders.toList ++
    top.filterMap fun id => (scene.owner? id).bind Owner.parent)

/-- Clears references, takes owners out of their slots and erases a set of
owners. -/
def removeAll
    (references : List Reference)
    (top : List OwnerId)
    (closure : OwnerSet) :
    Change Unit := do
  references.forM fun reference => Change.assign reference (.reference none)
  top.forM fun id => discard (Change.detach id)
  Change.scene fun scene => eraseAll scene closure

/-- Removes the topmost owners of the list. -/
def removeTop
    (command : RemoveOwners)
    (document : Document)
    (top : List OwnerId) :
    Step RemoveOwners Document Outcome :=
  let scene := document.scene
  let closure := scene.removalClosure top
  let references := scene.holdersOf closure
  let holders := Scene.holdingOwners references
  if 0 < holders.size && !command.confirmed then
    .failed command document (.danglingReference holders.size)
  else
    .first command document (touched scene top closure holders)
      (removeAll references top closure) fun transition =>
        { command with transition := some transition }

/-- Removes the owners, all of which have to exist and none of which may be the
root. -/
def apply (command : RemoveOwners) (document : Document) :
    Step RemoveOwners Document Outcome :=
  match command.transition with
  | some transition => .again command document transition
  | none =>
    let scene := document.scene
    match command.roots.find? fun id => !scene.contains id with
    | some id => .failed command document (.unknownOwner id)
    | none =>
      if scene.root ∈ command.roots then
        .failed command document
          (.invalidParent scene.root "the root object cannot be removed")
      else
        let top := scene.topLevel command.roots
        if top.isEmpty then .idle command document
        else command.removeTop document top

/-- Puts back what was removed, and the references to it. -/
def revert (command : RemoveOwners) (document : Document) :
    Step RemoveOwners Document Unit :=
  .back command document command.transition

end RemoveOwners
end MotionScene
