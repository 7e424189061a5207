import MotionScene.Command.Basic

/-!
# Converting shapes to paths

An ellipse or a rectangle is replaced by a path of the same shape, which takes
over its place, its shared properties, its children and tags, and the references
to it.
-/

namespace MotionScene

namespace Path

/-- The circle constant. -/
def pi : Float := 3.141592653589793

/-- A knot of an ellipse. -/
def ellipseKnot (radius handle : Float) (count : Int) (i : Nat) : Knot Float :=
  let angle := 2.0 * pi * Number.ofInt i / Number.ofInt count
  let sine := Number.sine angle
  let cosine := Number.cosine angle
  .smooth ⟨radius * cosine, radius * sine⟩ (Point.scale ⟨-sine, cosine⟩ handle)

/-- A circle of at least three smooth knots about the origin. -/
def ellipse (radius : Float) (segments : Int64) : Path Float :=
  let count := max segments.toInt 3
  let handle :=
    4.0 / 3.0 * Number.tangent (pi / (2.0 * Number.ofInt count)) * radius
  ⟨(List.range count.toNat).map (ellipseKnot radius handle count), true⟩

/-- A rectangle of a size about the origin. -/
def rectangle (size : Point Float) : Path Float :=
  let w := size.x / 2.0
  let h := size.y / 2.0
  ⟨[.linear ⟨-w, -h⟩, .linear ⟨w, -h⟩, .linear ⟨w, h⟩, .linear ⟨-w, h⟩], true⟩

end Path

/-- Replaces ellipses and rectangles by paths. -/
structure Convert where
  targets : List OwnerId
  /-- The replaced objects and the paths that replace them. -/
  converted : List (OwnerId × OwnerId) := []
  transition : Option Transition := none

namespace Convert

/-- What the history shows. -/
def label (_ : Convert) : String :=
  "Convert to path"

/-- The objects to replace: of the targets that are not beneath another one,
those that can be. -/
def sources (command : Convert) (scene : Scene) : List OwnerId :=
  (scene.topLevel command.targets).filter fun id =>
    match scene.owner? id with
    | some owner => owner.kind.isConvertible
    | none => false

/-- A value at the current frame, as a double. -/
def floatOf (document : Document) (address : PropertyAddress) :
    Except Fault Float := do
  match ← document.value address with
  | .float x => return x
  | _ => return 0.0

/-- A value at the current frame, as a whole number. -/
def integerOf (document : Document) (address : PropertyAddress) :
    Except Fault Int64 := do
  match ← document.value address with
  | .integer n => return n
  | _ => return 4

/-- A value at the current frame, as a point. -/
def pointOf (document : Document) (address : PropertyAddress) :
    Except Fault (Point Float) := do
  match ← document.value address with
  | .floatVector p => return p
  | _ => return .zero

/-- The shape of an object as a path. -/
def shape (document : Document) (source : Owner) : Except Fault (Path Float) :=
  match source.kind with
  | .object .ellipse => do
    let radius ← floatOf document ⟨source.id, "radius"⟩
    let segments ← integerOf document ⟨source.id, "segments"⟩
    return .ellipse radius segments
  | .object .rectangle =>
    return .rectangle (← pointOf document ⟨source.id, "size"⟩)
  | _ => throw (.invalid s!"{source.id.describe} cannot be converted")

/-- A property of the new path: that of the same name and kind, if the object
has one. -/
def inherit (source : Owner) (id : OwnerId) (property : Property) : Property :=
  match source.property? property.name with
  | some source =>
    if source.kind = property.kind then
      { source with
        track := source.track.map fun track =>
          { track with target := ⟨id, source.name⟩ } }
    else property
  | none => property

/-- The path that replaces an object. -/
def pathFor (document : Document) (source : Owner) (id : OwnerId) :
    Except Fault Owner := do
  let path := (document.buildOwner id (.object .path)).withGeometry
    (← shape document source)
  return { path with properties := path.properties.map (inherit source id) }

/-- The paths that replace some objects; numbers are used up even if that
fails. -/
def pathsFor (document : Document) :
    List OwnerId → Document × Except Fault (List (OwnerId × Owner))
  | [] => (document, .ok [])
  | id :: rest =>
    match document.allocate with
    | .error fault => (document, .error fault)
    | .ok (allocated, fresh) =>
      match (allocated.scene.owner id).bind fun source =>
          pathFor allocated source fresh with
      | .error fault => (allocated, .error fault)
      | .ok path =>
        let (last, others) := pathsFor allocated rest
        (last, others.map ((id, path) :: ·))

/-- Gives an owner another parent. -/
def setParent (parent id : OwnerId) : Change Unit := do
  let _ ← Change.consult fun scene => scene.owner id
  Change.scene fun scene => scene.modify id fun owner =>
    { owner with parent := some parent }

/-- A selection with one owner in place of another. -/
def reselect (selection : OwnerSet) (old new : OwnerId) : OwnerSet :=
  if old ∈ selection then (selection.erase old).insert new else selection

/-- Replaces an object by a path. -/
def replaceOne (source : OwnerId) (path : Owner) : Change Unit := do
  let slot ← Change.detach source
  let content ← Change.consult fun scene => scene.owner source
  Change.scene fun scene =>
    scene.modify source fun owner => { owner with children := [], tags := [] }
  (content.children ++ content.tags).forM (setParent path.id)
  Change.scene fun scene =>
    scene.insert
      { path with children := content.children, tags := content.tags }
  Change.attach path.id slot
  let holders ← Change.consult fun scene =>
    .ok (scene.holdersOf (Std.ExtTreeSet.ofList [source]))
  holders.forM fun reference =>
    Change.assign reference (.reference (some path.id))
  Change.scene fun scene =>
    { scene with
      selection := reselect scene.selection source path.id }.erase source

/-- Replaces objects by paths. -/
def replaceAll (pairs : List (OwnerId × Owner)) : Change Unit :=
  pairs.forM fun (source, path) => replaceOne source path

/-- An object and the owners that its replacement may change. -/
def touchedBy (scene : Scene) (id : OwnerId) : List OwnerId :=
  match scene.owner? id with
  | some owner =>
    id :: owner.parent.toList ++ owner.children ++ owner.tags ++
      (scene.holdersOf (Std.ExtTreeSet.ofList [id])).map Reference.owner
  | none => [id]

/-- Replaces objects for the first time. -/
def convertAll
    (command : Convert)
    (document : Document)
    (sources : List OwnerId) :
    Step Convert Document Outcome :=
  match pathsFor document sources with
  | (allocated, .error fault) => .failed command allocated fault
  | (allocated, .ok pairs) =>
    let converted := pairs.map fun (source, path) => (source, path.id)
    let touched := Std.ExtTreeSet.ofList
      (sources.flatMap (touchedBy document.scene) ++ converted.map Prod.snd)
    .first command allocated touched (replaceAll pairs) fun transition =>
      { command with converted, transition := some transition }

/-- Replaces the objects; with none to replace there is no change. -/
def apply (command : Convert) (document : Document) :
    Step Convert Document Outcome :=
  match command.transition with
  | some transition => .again command document transition
  | none =>
    let sources := command.sources document.scene
    if sources.isEmpty then .idle command document
    else command.convertAll document sources

/-- Puts the objects back in place of their paths. -/
def revert (command : Convert) (document : Document) :
    Step Convert Document Unit :=
  .back command document command.transition

end Convert
end MotionScene
