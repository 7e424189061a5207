import MotionScene.Digest.Content
import MotionScene.Document.Basic
import MotionScene.Json.Parser

/-!
# Snapshots

A snapshot is the stored form of a document: all owners in order of the tree and
the lists of the document.  Loading checks every rule.  The fingerprint of a
scene hashes a canonical form of it.
-/

namespace MotionScene

/-- A document as it is stored. -/
structure Snapshot where
  id : DocumentId
  root : OwnerId
  styles : List OwnerId
  tools : List OwnerId
  selection : List OwnerId
  clock : Clock
  owners : List Owner
deriving DecidableEq

namespace Snapshot

/-- Whether two stored documents are equal, doubles as numbers. -/
def agrees (a b : Snapshot) : Bool :=
  a.id = b.id && a.root = b.root && a.styles = b.styles && a.tools = b.tools &&
    a.selection = b.selection && a.clock.agrees b.clock &&
    Agreement.list Owner.agrees a.owners b.owners

/-- The fields of a stored document in order. -/
def fields (snapshot : Snapshot) : List (String × Json) :=
  [("id", snapshot.id.toJson), ("root", snapshot.root.toJson),
    ("styles", .ofList OwnerId.toJson snapshot.styles),
    ("tools", .ofList OwnerId.toJson snapshot.tools),
    ("selection", .ofList OwnerId.toJson snapshot.selection),
    ("animator", snapshot.clock.toJson),
    ("owners", .ofList Owner.toJson snapshot.owners)]

/-- The record that is saved. -/
def toJson (snapshot : Snapshot) : Json :=
  .obj snapshot.fields

/-- The document of a record; the lists of it may be missing. -/
def ofJson? (tree : Json) : Option Snapshot := do
  match ← tree.record?
    ["id", "root", "styles", "tools", "selection", "animator", "owners"] with
  | [id, root, styles, tools, selection, clock, owners] =>
    return ⟨← Json.required DocumentId.ofJson? id,
      ← Json.required OwnerId.ofJson? root,
      ← Json.withDefault [] (Json.list? OwnerId.ofJson?) styles,
      ← Json.withDefault [] (Json.list? OwnerId.ofJson?) tools,
      ← Json.withDefault [] (Json.list? OwnerId.ofJson?) selection,
      ← Json.required Clock.ofJson? clock,
      ← Json.required (Json.list? Owner.ofJson?) owners⟩
  | _ => none

/-- The text a document is saved as. -/
def text (snapshot : Snapshot) : String :=
  snapshot.toJson.indented

/-- The snapshot of a saved text. -/
def ofText? (text : String) : Option Snapshot :=
  (Json.read? text).bind ofJson?

end Snapshot

namespace Document

/-- The stored form of a document: owners in order of the tree, then any that
are not listed. -/
def snapshot (document : Document) : Snapshot :=
  let scene := document.scene
  let listed := scene.orderedIds
  let order := listed ++ scene.owners.ids.filter fun id => !(id ∈ listed)
  ⟨document.id, scene.root, scene.styles, scene.tools, scene.selection.toList,
    document.clock, order.filterMap scene.owner?⟩

/-- Registers owners one by one; a number that comes twice is refused. -/
def register (document : Document) : List Owner → Except Fault Document
  | [] => .ok document
  | owner :: rest => do
    let document ← document.reserve owner.id
    if document.scene.contains owner.id then
      throw (.invalid s!"duplicate owner {owner.id.describe}")
    { document with scene := document.scene.insert owner }.register rest

/-- The document of a snapshot, or everything that is wrong with it. -/
def ofSnapshot (snapshot : Snapshot) (settings : Settings) :
    Except (List Fault) Document :=
  match (empty snapshot.id settings).register snapshot.owners with
  | .error fault => .error [fault]
  | .ok document =>
    let scene := { document.scene with
      root := snapshot.root
      styles := snapshot.styles
      tools := snapshot.tools
      selection := Std.ExtTreeSet.ofList snapshot.selection }
    match scene.violations with
    | [] => .ok { document with scene, clock := snapshot.clock }
    | faults => .error faults

end Document

namespace Scene

/-- The canonical form of a scene: owners in ascending order, everything that
can be undone. -/
def canonical (scene : Scene) : Json :=
  .obj [("root", scene.root.toJson),
    ("styles", .ofList OwnerId.toJson scene.styles),
    ("tools", .ofList OwnerId.toJson scene.tools),
    ("selection", .ofList OwnerId.toJson scene.selection.toList),
    ("owners", .ofList Owner.toJson scene.owners.toList)]

/-- The hash of the canonical form. -/
def fingerprint (scene : Scene) : ContentHash :=
  .ofJson scene.canonical

end Scene
end MotionScene
