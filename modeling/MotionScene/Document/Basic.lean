import MotionScene.Clock
import MotionScene.Owner.Defaults
import MotionScene.Scene.Validation

/-!
# Documents

A document is a scene together with what undo leaves alone: its identifier, its
clock, the next number for an owner, and the settings for new paths.
-/

namespace MotionScene

/-- An open document. -/
structure Document where
  id : DocumentId
  scene : Scene
  clock : Clock
  nextId : Nat
  paths : PathSettings
deriving DecidableEq

namespace Document

/-- A document without owners. -/
def empty (id : DocumentId) (settings : Settings) : Document :=
  ⟨id, .empty, .new settings.animation, 1, settings.paths⟩

/-- The number after another one.  Numbers have sixty-four bits, and there is
none after the last of them. -/
def countOn (number : Nat) : Except Fault Nat :=
  if number + 1 < OwnerId.limit then .ok (number + 1)
  else .error (.halted "attempt to add with overflow")

/-- The document with the next number given out, and that number. -/
def allocate (document : Document) : Except Fault (Document × OwnerId) := do
  let nextId ← countOn document.nextId
  return ({ document with nextId }, ⟨document.nextId⟩)

/-- The document with the next few numbers given out. -/
def allocateMany (document : Document) : Nat → Except Fault Document
  | 0 => .ok document
  | count + 1 => do
    let (document, _) ← document.allocate
    document.allocateMany count

/-- The document with numbers up to a given one never given out again. -/
def reserve (document : Document) (id : OwnerId) : Except Fault Document := do
  let above ← countOn id.number
  return { document with nextId := Nat.max document.nextId above }

/-- A new owner of a kind, not yet in the scene. -/
def buildOwner (document : Document) (id : OwnerId)
    (kind : OwnerKind) : Owner :=
  .ofKind id kind document.paths

/-- The document with a number given out, and a new owner of that number. -/
def createOwner (document : Document) (kind : OwnerKind) :
    Except Fault (Document × Owner) := do
  let (document, id) ← document.allocate
  return (document, document.buildOwner id kind)

/-- A document with an empty root object and the default tool, which have the
first two numbers. -/
def new (id : DocumentId) (settings : Settings) : Document :=
  let document := empty id settings
  let root := document.buildOwner ⟨1⟩ (.object .empty)
  let tool := document.buildOwner ⟨2⟩ (.tool .select)
  { document with
    nextId := 3
    scene := { (document.scene.insert (root.withName "root")).insert tool with
      root := root.id
      tools := [tool.id] } }

/-- The value of a property at a frame. -/
def valueAt (document : Document) (address : PropertyAddress) (frame : Int32) :
    Except Fault Value := do
  return (← document.scene.property address).valueAt (some frame)

/-- The value of a property at the frame where the clock stands. -/
def value (document : Document) (address : PropertyAddress) :
    Except Fault Value :=
  document.valueAt address document.clock.current

end Document
end MotionScene
