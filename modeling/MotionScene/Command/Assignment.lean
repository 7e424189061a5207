import MotionScene.Command.Basic

/-!
# Setting properties and the selection

One command assigns a value to a property of one or several owners, another
replaces the selection.
-/

namespace MotionScene

/-- Assigns a value to a property of some owners. -/
structure SetProperty where
  targets : List OwnerId
  property : String
  value : Value
  /-- The values the owners had, in the order of assignment. -/
  previous : List (OwnerId × Value) := []

namespace SetProperty

/-- The command for some owners, each taken once. -/
def new (targets : List OwnerId) (property : String) (value : Value) :
    SetProperty :=
  { targets := Scene.distinct targets, property, value }

/-- What the history shows: the name of the property, and how many owners there
are. -/
def label (command : SetProperty) : String :=
  match command.targets.length with
  | 1 => s!"Set {command.property}"
  | count => s!"Set {command.property} on {count} owners"

/-- Refuses a reference to a missing owner or one of the wrong category. -/
def checkReference
    (scene : Scene)
    (property : Property)
    (name : String)
    (value : Value) :
    Except Fault Unit :=
  match value.target? with
  | none => .ok ()
  | some target =>
    match scene.owner? target with
    | some owner =>
      if property.constraints.allows owner.kind.category then .ok ()
      else .error (.invalidReference name target)
    | none => .error (.invalidReference name target)

/-- The old and the new value of one owner. -/
def prepareOne (command : SetProperty) (scene : Scene) (owner : OwnerId) :
    Except Fault (OwnerId × Value × Value) := do
  let property ← scene.property ⟨owner, command.property⟩
  let value ← property.coerce command.value
  checkReference scene property command.property value
  return (owner, property.value, value)

/-- The old and the new value of every owner. -/
def prepare (command : SetProperty) (scene : Scene) :
    Except Fault (List (OwnerId × Value × Value)) :=
  command.targets.mapM (command.prepareOne scene)

/-- Stores values one after the other, up to the first failure. -/
def storeAll (scene : Scene) (name : String) :
    List (OwnerId × Value) → Scene × Except Fault Unit
  | [] => (scene, .ok ())
  | (owner, value) :: rest =>
    match scene.store owner name value with
    | .ok stored => storeAll stored name rest
    | .error fault => (scene, .error fault)

/-- Assigns the value to all owners, or to none if one of them cannot take
it. -/
def apply (command : SetProperty) (document : Document) :
    Step SetProperty Document Outcome :=
  match command.prepare document.scene with
  | .error fault => .failed command document fault
  | .ok plan =>
    if plan.all fun (_, old, new) => old.agrees new then .idle command document
    else
      let (scene, result) := storeAll document.scene command.property
        (plan.map fun (owner, _, new) => (owner, new))
      ⟨{ command with
        previous := plan.map fun (owner, old, _) => (owner, old) },
        { document with scene }, result.map fun _ => .changed⟩

/-- Assigns the old values, last owner first. -/
def revert (command : SetProperty) (document : Document) :
    Step SetProperty Document Unit :=
  let (scene, result) :=
    storeAll document.scene command.property command.previous.reverse
  ⟨command, { document with scene }, result⟩

end SetProperty

/-- Replaces the set of selected owners. -/
structure SetSelection where
  selection : OwnerSet
  previous : OwnerSet := ∅

namespace SetSelection

/-- What the history shows. -/
def label (_ : SetSelection) : String :=
  "Select"

/-- Selects the owners, all of which have to exist. -/
def apply (command : SetSelection) (document : Document) :
    Step SetSelection Document Outcome :=
  let scene := document.scene
  match command.selection.toList.find? fun id => !scene.contains id with
  | some id => .failed command document (.unknownOwner id)
  | none =>
    if scene.selection = command.selection then .idle command document
    else
      ⟨{ command with previous := scene.selection },
        { document with
          scene := { scene with selection := command.selection } },
        .ok .changed⟩

/-- Selects what was selected before. -/
def revert (command : SetSelection) (document : Document) :
    Step SetSelection Document Unit :=
  ⟨command,
    { document with
      scene := { document.scene with selection := command.previous } },
    .ok ()⟩

end SetSelection
end MotionScene
