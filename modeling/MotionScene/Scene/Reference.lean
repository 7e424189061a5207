import MotionScene.Scene.Tree

/-!
# References between owners

Which properties refer to which owners, and what the removal of owners would
leave dangling.
-/

namespace MotionScene

/-- A property of one owner that refers to another. -/
structure Reference where
  owner : OwnerId
  property : String
  target : OwnerId
deriving DecidableEq, Repr

namespace Owner

/-- The references an owner holds. -/
def references (owner : Owner) : List Reference :=
  owner.properties.filterMap fun property =>
    property.value.target?.map fun target => ⟨owner.id, property.name, target⟩

end Owner

namespace Scene

/-- All references, by owner in ascending order. -/
def references (scene : Scene) : List Reference :=
  scene.owners.toList.flatMap Owner.references

/-- The references from outside a set of owners into it. -/
def holdersOf (scene : Scene) (targets : OwnerSet) : List Reference :=
  scene.references.filter fun reference =>
    reference.target ∈ targets && !(reference.owner ∈ targets)

/-- The owners that hold references. -/
def holdingOwners (references : List Reference) : OwnerSet :=
  Std.ExtTreeSet.ofList (references.map Reference.owner)

/-- All owners that go when some are removed. -/
def removalClosure (scene : Scene) (roots : List OwnerId) : OwnerSet :=
  Std.ExtTreeSet.ofList (roots.flatMap scene.subtree)

/-- How many owners would be left with a dangling reference. -/
def removalConflicts (scene : Scene) (roots : List OwnerId) : Nat :=
  (holdingOwners (scene.holdersOf (scene.removalClosure roots))).size

/-- The styles that nothing refers to. -/
def unusedStyles (scene : Scene) : List OwnerId :=
  let used := scene.references.map Reference.target
  scene.styles.filter fun style => !(style ∈ used)

end Scene
end MotionScene
