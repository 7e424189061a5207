import MotionScene.Document.Snapshot

/-!
# Reports on documents

What is printed about a document: its tree, and its property values as JSON.
-/

namespace MotionScene
namespace Report

/-- The name of a way of blending, as reports show it. -/
def interpolationTitle : Interpolation → String
  | .linear => "Linear"
  | .smoothCubic => "SmoothCubic"
  | .step => "Step"

/-- Frames in brackets. -/
def frameList (frames : List Int32) : String :=
  "[" ++ ", ".intercalate (frames.map fun frame => toString frame.toInt) ++ "]"

/-- The line of a tag. -/
def tagLine (scene : Scene) (indent : String) (id : OwnerId) :
    Except Fault String := do
  let kind := (← scene.owner id).kind
  return s!"{indent}  [{id.describe} {kind.describe}]"

/-- The line of a geometry. -/
def geometryLine (indent : String) (path : Path Float) : String :=
  let state := if path.closed then "closed" else "open"
  s!"{indent}  path: {path.knots.length} knot(s), {state}"

/-- The line of a track. -/
def trackLine (indent : String) (property : Property)
    (track : Track) : String :=
  s!"{indent}  track {property.name}: " ++
    interpolationTitle track.interpolation ++ " at frames " ++
    frameList track.frames

/-- The lines of an owner without its children. -/
def ownerLines (scene : Scene) (indent : String) (owner : Owner) :
    Except Fault (List String) := do
  let name := owner.name?.getD ""
  let tags ← owner.tags.mapM (tagLine scene indent)
  let tracks := owner.properties.filterMap fun property =>
    property.track.map (trackLine indent property)
  return [s!"{indent}{owner.id.describe} {owner.kind.describe} \"{name}\""] ++
    tags ++ (owner.geometry.map (geometryLine indent)).toList ++ tracks

/-- The lines of an owner and everything beneath it, indented by depth. -/
def treeLines (scene : Scene) :
    Nat → String → OwnerId → Except Fault (List String)
  | 0, _, _ => .ok []
  | fuel + 1, indent, id => do
    let owner ← scene.owner id
    let own ← ownerLines scene indent owner
    let children ← owner.children.mapM (treeLines scene fuel (indent ++ "  "))
    return own ++ children.flatten

/-- The line of a style. -/
def styleLine (scene : Scene) (id : OwnerId) : Except Fault String := do
  let name := (← scene.owner id).name?.getD ""
  return s!"{id.describe} {name}"

/-- Lines as text. -/
def lines (content : List String) : String :=
  "".intercalate (content.map (· ++ "\n"))

/-- The description of a document. -/
def info (document : Document) : Except Fault String := do
  let scene := document.scene
  let tree ← treeLines scene (scene.owners.size + 1) "" scene.root
  let styles ← scene.styles.mapM (styleLine scene)
  return lines ([s!"Document {document.id.text}",
    s!"   Owners:      {scene.owners.size}",
    s!"   Styles:      {scene.styles.length}",
    s!"   Tools:       {scene.tools.length}",
    s!"   References:  {scene.references.length}",
    s!"   Fingerprint: {scene.fingerprint.hex}",
    ""] ++ tree ++ styles)

/-- The values of an owner at a frame, by name. -/
def ownerValues (document : Document) (frame : Int32) (id : OwnerId) :
    Except Fault Json := do
  let owner ← document.scene.owner id
  let fields ← owner.properties.mapM fun property => do
    return (property.name,
      (← document.valueAt ⟨id, property.name⟩ frame).toPlain)
  return .obj fields

/-- The values of one owner or of all at a frame, in sorted order. -/
def values (document : Document) (frame : Int32) :
    Option OwnerId → Except Fault String
  | some id =>
    do return lines [(← ownerValues document frame id).sorted.indented]
  | none => do
    let fields ← document.scene.orderedIds.mapM fun id => do
      return (Nat.repr id.number, ← ownerValues document frame id)
    return lines [(Json.obj fields).sorted.indented]

end Report
end MotionScene
