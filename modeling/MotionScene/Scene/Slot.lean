import MotionScene.Scene.Tree

/-!
# Slots

A slot is a place in one of the lists that hold owners: the children or the tags
of an object, the styles, the tools.
-/

namespace MotionScene

/-- A place where an owner is attached; a position past the end of a list means
its end. -/
inductive Slot where
  | child (parent : OwnerId) (index : Nat)
  | tag (object : OwnerId) (index : Nat)
  | style (index : Nat)
  | tool (index : Nat)
deriving DecidableEq, Repr

namespace Slot

/-- The object whose list holds the slot. -/
def host? : Slot → Option OwnerId
  | child parent _ => some parent
  | tag object _ => some object
  | style _ | tool _ => none

end Slot

namespace Scene

/-- The slot that holds an owner. -/
def slotOf (scene : Scene) (id : OwnerId) : Option Slot := do
  let owner ← scene.owner? id
  match owner.kind with
  | .object _ =>
    let parent ← owner.parent
    let index ← (← scene.owner? parent).children.idxOf? id
    return .child parent index
  | .tag _ =>
    let object ← owner.parent
    let index ← (← scene.owner? object).tags.idxOf? id
    return .tag object index
  | .style => (scene.styles.idxOf? id).map .style
  | .tool _ => (scene.tools.idxOf? id).map .tool

/-- The scene without the entry of a slot. -/
def eraseAt (scene : Scene) : Slot → Scene
  | .child parent index =>
    scene.modify parent fun owner =>
      { owner with children := owner.children.eraseIdx index }
  | .tag object index =>
    scene.modify object fun owner =>
      { owner with tags := owner.tags.eraseIdx index }
  | .style index => { scene with styles := scene.styles.eraseIdx index }
  | .tool index => { scene with tools := scene.tools.eraseIdx index }

/-- A list with an entry put before a position, or at the end. -/
def insertAt (ids : List OwnerId) (index : Nat) (id : OwnerId) : List OwnerId :=
  ids.insertIdx (Nat.min index ids.length) id

/-- The scene with an entry put into a slot. -/
def insertInto (scene : Scene) (id : OwnerId) : Slot → Scene
  | .child parent index =>
    scene.modify parent fun owner =>
      { owner with children := insertAt owner.children index id }
  | .tag object index =>
    scene.modify object fun owner =>
      { owner with tags := insertAt owner.tags index id }
  | .style index => { scene with styles := insertAt scene.styles index id }
  | .tool index => { scene with tools := insertAt scene.tools index id }

/-- The scene with an owner taken out of its slot but still registered, and that
slot. -/
def detach (scene : Scene) (id : OwnerId) : Except Fault (Scene × Slot) :=
  match scene.slotOf id with
  | some slot =>
    .ok ((scene.eraseAt slot).modify id fun owner =>
      { owner with parent := none }, slot)
  | none => .error (.invalidParent id "owner is not attached")

/-- Refuses a slot that an owner cannot be attached to. -/
def checkAttach (scene : Scene) (id : OwnerId) (slot : Slot) :
    Except Fault Unit := do
  let owner ← scene.owner id
  match slot with
  | .child parent _ =>
    if !owner.kind.isObject then
      throw (.invalidParent id "only objects can be children")
    if !(← scene.owner parent).kind.isObject then
      throw (.invalidParent id "parent is not an object")
    if scene.isWithin parent id then throw (.cyclicParent id)
  | .tag object _ =>
    if !owner.kind.isTag then
      throw (.invalidParent id "only tags can be attached as tags")
    if !(← scene.owner object).kind.isObject then
      throw (.invalidParent id "tags must sit on an object")
  | .style _ =>
    if owner.kind.category ≠ .style then throw (.invalidParent id "not a style")
  | .tool _ =>
    if owner.kind.category ≠ .tool then throw (.invalidParent id "not a tool")

/-- The scene with an owner attached at a slot. -/
def attach (scene : Scene) (id : OwnerId) (slot : Slot) :
    Except Fault Scene := do
  scene.checkAttach id slot
  return (scene.insertInto id slot).modify id fun owner =>
    { owner with parent := slot.host? }

end Scene
end MotionScene
