import MotionScene.Command.Basic

/-!
# Adding owners

New owners are attached in order, so that a later one may sit on an earlier one.
-/

namespace MotionScene

/-- A new owner and where to attach it. -/
structure NewOwner where
  owner : Owner
  slot : Slot

/-- Adds owners that were built before. -/
structure AddOwners where
  items : List NewOwner
  transition : Option Transition := none

namespace AddOwners

/-- The owners to add. -/
def ids (command : AddOwners) : List OwnerId :=
  command.items.map fun item => item.owner.id

/-- What the history shows: the kind of a single owner, otherwise how many there
are. -/
def label (command : AddOwners) : String :=
  match command.items with
  | [item] => s!"Add {item.owner.kind.describe}"
  | items => s!"Add {items.length} owners"

/-- The owners that the command may change: the new ones and those they are
attached to. -/
def touched (command : AddOwners) : OwnerSet :=
  Std.ExtTreeSet.ofList
    (command.ids ++ command.items.filterMap fun item => item.slot.host?)

/-- An owner without links. -/
def unlinked (owner : Owner) : Owner :=
  { owner with parent := none, children := [], tags := [] }

/-- Registers and attaches an owner; its number is never given out again. -/
def place (item : NewOwner) : Change Unit := do
  Change.reserve item.owner.id
  Change.scene fun scene => scene.insert (unlinked item.owner)
  Change.attach item.owner.id item.slot

/-- Refuses a reference to a missing owner. -/
def checkReferences (scene : Scene) (items : List NewOwner) :
    Except Fault Unit :=
  match (items.flatMap fun item => item.owner.references).find? fun reference =>
      !scene.contains reference.target with
  | some reference =>
    .error (.invalidReference reference.property reference.target)
  | none => .ok ()

/-- Registers and attaches owners in order; in the end their references have to
be good. -/
def placeAll (items : List NewOwner) : Change Unit := do
  items.forM place
  Change.consult fun scene => checkReferences scene items

/-- Adds the owners, none of which may exist already; nothing to add is no
change. -/
def apply (command : AddOwners) (document : Document) :
    Step AddOwners Document Outcome :=
  match command.transition with
  | some transition => .again command document transition
  | none =>
    if command.items.isEmpty then .idle command document
    else
      match command.ids.find? document.scene.contains with
      | some id =>
        .failed command document
          (.invalid s!"owner {id.describe} already exists")
      | none =>
        .first command document command.touched
          (placeAll command.items) fun transition =>
            { command with transition := some transition }

/-- Puts back what was there before the owners were added. -/
def revert (command : AddOwners) (document : Document) :
    Step AddOwners Document Unit :=
  .back command document command.transition

end AddOwners
end MotionScene
