import MotionScene.Fault
import MotionScene.Scene.Registry

/-!
# Scenes

The part of a document that commands change and undo restores: the owners, the
root of the object tree, the lists of styles and tools, and the selection.
-/

namespace MotionScene

/-- Everything in a document that can be undone. -/
structure Scene where
  owners : Registry
  root : OwnerId
  styles : List OwnerId
  tools : List OwnerId
  selection : OwnerSet
deriving DecidableEq

namespace Scene

/-- A scene without owners. -/
def empty : Scene :=
  ⟨.empty, ⟨0⟩, [], [], ∅⟩

/-- The owner of a number. -/
def owner? (scene : Scene) (id : OwnerId) : Option Owner :=
  scene.owners.get? id

/-- Whether there is an owner of a number. -/
def contains (scene : Scene) (id : OwnerId) : Bool :=
  (scene.owner? id).isSome

/-- The owner of a number, which has to exist. -/
def owner (scene : Scene) (id : OwnerId) : Except Fault Owner :=
  match scene.owner? id with
  | some owner => .ok owner
  | none => .error (.unknownOwner id)

/-- A property, which has to exist. -/
def property (scene : Scene) (address : PropertyAddress) :
    Except Fault Property := do
  match (← scene.owner address.owner).property? address.property with
  | some property => return property
  | none => throw (.unknownProperty address.owner address.property)

/-- The geometry of a path. -/
def geometry (scene : Scene) (id : OwnerId) : Except Fault (Path Float) := do
  match (← scene.owner id).geometry with
  | some geometry => return geometry
  | none => throw (.notAPath id)

/-- The scene with an owner registered. -/
def insert (scene : Scene) (owner : Owner) : Scene :=
  { scene with owners := scene.owners.insert owner }

/-- The scene with an owner no longer registered. -/
def erase (scene : Scene) (id : OwnerId) : Scene :=
  { scene with owners := scene.owners.erase id }

/-- The scene with an owner changed. -/
def modify (scene : Scene) (id : OwnerId) (change : Owner → Owner) : Scene :=
  { scene with owners := scene.owners.modify id change }

/-- The scene with a property changed, which has to exist. -/
def modifyProperty
    (scene : Scene)
    (address : PropertyAddress)
    (change : Property → Property) :
    Except Fault Scene := do
  let _ ← scene.property address
  return scene.modify address.owner fun owner =>
    owner.modifyProperty address.property change

/-- The scene with a property of an owner holding a value, which has to
exist. -/
def store (scene : Scene) (owner : OwnerId) (name : String) (value : Value) :
    Except Fault Scene :=
  scene.modifyProperty ⟨owner, name⟩ fun property => { property with value }

/-- The scene with another geometry for a path, which has to exist. -/
def setGeometry (scene : Scene) (id : OwnerId) (geometry : Path Float) :
    Except Fault Scene := do
  let _ ← scene.geometry id
  return scene.modify id fun owner => { owner with geometry := some geometry }

end Scene
end MotionScene
