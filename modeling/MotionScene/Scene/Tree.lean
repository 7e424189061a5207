import MotionScene.Scene.Basic

/-!
# The tree of objects

Walking down the tree lists an object, its tags and everything beneath it;
walking up tells whether one owner lies within another.  Both walks end on any
scene, however its links are tangled.
-/

namespace MotionScene
namespace Scene

/-- A list followed by those of another that it does not have yet. -/
def appendNew (listed : List OwnerId) : List OwnerId → List OwnerId
  | [] => listed
  | id :: rest =>
    if id ∈ listed then appendNew listed rest
    else appendNew (listed ++ [id]) rest

/-- Lists the owners still to be visited, each with its tags before its
children, except those listed already. -/
def walk (scene : Scene) : Nat → List OwnerId → List OwnerId → List OwnerId
  | 0, _, listed => listed
  | _ + 1, [], listed => listed
  | fuel + 1, id :: pending, listed =>
    if id ∈ listed then walk scene fuel pending listed
    else
      match scene.owner? id with
      | some owner =>
        walk scene fuel (owner.children ++ pending)
          (appendNew (listed ++ [id]) owner.tags)
      | none => walk scene fuel pending (listed ++ [id])

/-- How many links to children there are. -/
def childCount (scene : Scene) : Nat :=
  (scene.owners.toList.flatMap Owner.children).length

/-- An owner, its tags and all objects beneath it with theirs, in order of the
tree.  Every link to a child is followed at most once, so the walk ends by
itself. -/
def subtree (scene : Scene) (id : OwnerId) : List OwnerId :=
  scene.walk (scene.childCount + 1) [id] []

/-- All owners in order: the tree, the styles, the tools. -/
def orderedIds (scene : Scene) : List OwnerId :=
  scene.subtree scene.root ++ scene.styles ++ scene.tools

/-- Whether a number of steps upwards leads from one owner to another. -/
def climbs (scene : Scene) : Nat → OwnerId → OwnerId → Bool
  | 0, _, _ => false
  | fuel + 1, id, ancestor =>
    id = ancestor ||
      match (scene.owner? id).bind Owner.parent with
      | some parent => climbs scene fuel parent ancestor
      | none => false

/-- Whether an owner is another one or lies beneath it; no more steps are taken
than there are owners. -/
def isWithin (scene : Scene) (id ancestor : OwnerId) : Bool :=
  scene.climbs (scene.owners.size + 1) id ancestor

/-- The first owner with a name. -/
def findByName (scene : Scene) (name : String) : Option OwnerId :=
  scene.orderedIds.find? fun id =>
    (scene.owner? id).bind Owner.name? == some name

/-- A list without repetitions, each entry at its first place. -/
def distinct (ids : List OwnerId) : List OwnerId :=
  appendNew [] ids

/-- The existing owners of a list that do not lie beneath another one of it,
without repetitions. -/
def topLevel (scene : Scene) (ids : List OwnerId) : List OwnerId :=
  let known := distinct (ids.filter scene.contains)
  known.filter fun id => !known.any fun other =>
    other ≠ id && scene.isWithin id other

end Scene
end MotionScene
