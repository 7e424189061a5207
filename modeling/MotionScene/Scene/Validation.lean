import MotionScene.Scene.Reference

/-!
# Validation of scenes

Every rule a scene has to keep, checked in a fixed order: the root, each owner's
links and properties, exclusive ownership, reachability, the lists of styles and
tools, references, the selection.  All violations are reported.
-/

namespace MotionScene
namespace Scene

/-- A violation, if a rule is broken. -/
def require (holds : Bool) (fault : Fault) : List Fault :=
  if holds then [] else [fault]

/-- A violation of the structure, if a rule is broken. -/
def requireValid (holds : Bool) (detail : String) : List Fault :=
  require holds (.invalid detail)

/-! ## Links -/

/-- An entry of a list of children or tags: it has to exist, be of the right
sort and name the owner of the list as its parent. -/
def checkLink
    (scene : Scene)
    (sort : String)
    (fits : OwnerKind → Bool)
    (holder id : OwnerId) :
    List Fault :=
  match scene.owner? id with
  | some linked =>
    requireValid (fits linked.kind && linked.parent = some holder)
      s!"{sort} {id.describe} of {holder.describe} does not link back"
  | none =>
    [.invalid s!"{sort} {id.describe} of {holder.describe} does not exist"]

/-- Whether an owner is listed among the children or tags of another. -/
def lists (scene : Scene) (holder id : OwnerId) : Bool :=
  match scene.owner? holder with
  | some owner => id ∈ owner.children || id ∈ owner.tags
  | none => false

/-- The parent of an owner has to list it. -/
def checkParent (scene : Scene) (owner : Owner) : List Fault :=
  match owner.parent with
  | some parent =>
    requireValid (scene.lists parent owner.id)
      (s!"{owner.id.describe} claims parent {parent.describe} " ++
        "which does not list it")
  | none => []

/-- The links of an owner. -/
def checkLinks (scene : Scene) (owner : Owner) : List Fault :=
  owner.children.flatMap
      (scene.checkLink "child" OwnerKind.isObject owner.id) ++
    owner.tags.flatMap (scene.checkLink "tag" OwnerKind.isTag owner.id) ++
    requireValid (owner.kind.isObject || owner.children.isEmpty)
      s!"{owner.id.describe} is not an object but has children" ++
    scene.checkParent owner ++
    requireValid (owner.kind.isPath = owner.geometry.isSome)
      s!"{owner.id.describe} has mismatched path geometry"

/-! ## Properties -/

/-- The violation a check reports. -/
def violation : Except Fault Unit → List Fault
  | .ok () => []
  | .error fault => [fault]

/-- A reference has to point at an owner of an allowed category, if at an
existing one. -/
def checkReference (scene : Scene) (property : Property) : List Fault :=
  match property.value.target? with
  | some target =>
    match scene.owner? target with
    | some owner =>
      require (property.constraints.allows owner.kind.category)
        (.invalidReference property.name target)
    | none => []
  | none => []

/-- Whether frames ascend without repetition. -/
def ascending : List Int32 → Bool
  | a :: b :: rest => a < b && ascending (b :: rest)
  | _ => true

/-- The track of a property. -/
def checkTrack (owner : OwnerId) (property : Property) (track : Track) :
    List Fault :=
  let address : PropertyAddress := ⟨owner, property.name⟩
  require property.kind.isAnimatable (.notAnimatable property.kind) ++
    requireValid (track.kind = property.kind)
        s!"track of {address.describe} has the wrong kind" ++
    requireValid (track.target = address)
      s!"track of {address.describe} targets {track.target.describe}" ++
    requireValid (ascending track.frames)
      s!"keyframes of {address.describe} are not sorted and unique" ++
    track.keyframes.flatMap fun keyframe => violation (track.check keyframe)

/-- A property; one whose value is of another kind is not looked at further. -/
def checkProperty (scene : Scene) (owner : OwnerId) (property : Property) :
    List Fault :=
  if property.value.kind = property.kind then
    violation (property.checkRange property.value) ++
      scene.checkReference property ++
      (property.track.map (checkTrack owner property)).getD []
  else [.typeMismatch property.name property.kind property.value.kind]

/-! ## The whole scene -/

/-- The root has to be an object without a parent. -/
def checkRoot (scene : Scene) : List Fault :=
  match scene.owner? scene.root with
  | some owner =>
    requireValid (owner.kind.isObject && owner.parent.isNone)
      s!"root {scene.root.describe} must be a parentless object"
  | none => [.invalid s!"root {scene.root.describe} does not exist"]

/-- All entries of lists of children and tags. -/
def links (scene : Scene) : List OwnerId :=
  scene.owners.toList.flatMap fun owner => owner.children ++ owner.tags

/-- No owner may be linked twice. -/
def checkOwnership (scene : Scene) : List Fault :=
  let links := scene.links
  (Std.ExtTreeSet.ofList links : OwnerSet).toList.flatMap fun id =>
    let count := links.count id
    requireValid (count ≤ 1) s!"{id.describe} is owned {count} times"

/-- Objects and tags have to be reachable from the root, styles and tools to be
listed. -/
def checkPlace (scene : Scene) (reachable : List OwnerId) (owner : Owner) :
    List Fault :=
  match owner.kind with
  | .object _ | .tag _ =>
    requireValid (owner.id ∈ reachable)
      s!"{owner.id.describe} is not reachable from the root"
  | .style =>
    requireValid (owner.id ∈ scene.styles)
      s!"style {owner.id.describe} is not listed"
  | .tool _ =>
    requireValid (owner.id ∈ scene.tools)
      s!"tool {owner.id.describe} is not listed"

/-- Whether an owner exists and is of a category. -/
def isOf (scene : Scene) (category : Category) (id : OwnerId) : Bool :=
  match scene.owner? id with
  | some owner => owner.kind.category = category
  | none => false

/-- The list of styles may hold styles only. -/
def checkStyles (scene : Scene) : List Fault :=
  scene.styles.flatMap fun id =>
    requireValid (scene.isOf .style id)
      s!"style list entry {id.describe} is not a style"

/-- The list of tools may hold tools only. -/
def checkTools (scene : Scene) : List Fault :=
  scene.tools.flatMap fun id =>
    requireValid (scene.isOf .tool id)
      s!"tool list entry {id.describe} is not a tool"

/-- References have to point at existing owners; the owners that hold others are
counted. -/
def checkDangling (scene : Scene) : List Fault :=
  let dangling :=
    scene.references.filter fun reference => !scene.contains reference.target
  require dangling.isEmpty (.danglingReference (holdingOwners dangling).size)

/-- Selected owners have to exist; the least one that does not is named. -/
def checkSelection (scene : Scene) : List Fault :=
  match scene.selection.toList.find? fun id => !scene.contains id with
  | some id => [.unknownOwner id]
  | none => []

/-- All violations, in order. -/
def violations (scene : Scene) : List Fault :=
  let owners := scene.owners.toList
  let reachable := scene.subtree scene.root
  scene.checkRoot ++
    owners.flatMap (fun owner =>
      scene.checkLinks owner ++
        owner.properties.flatMap (scene.checkProperty owner.id)) ++
    scene.checkOwnership ++ owners.flatMap (scene.checkPlace reachable) ++
    scene.checkStyles ++
    scene.checkTools ++ scene.checkDangling ++ scene.checkSelection

end Scene
end MotionScene
