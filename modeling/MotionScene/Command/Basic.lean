import MotionScene.Command.Checkpoint
import MotionScene.Command.Reversible
import MotionScene.Document.Basic
import MotionScene.Scene.Slot

/-!
# Steps on documents

Most commands change the scene of a document and nothing else, and leave
everything as it is when they fail.  A change of many owners is made piece by
piece; when it fails part of the way, the owners it touched are put back.
-/

namespace MotionScene

/-- A change of a document that may fail part of the way; what was done until
then stays. -/
abbrev Change (α : Type) := EStateM Fault Document α

namespace Change

/-- Changes the scene. -/
def scene (change : Scene → Scene) : Change Unit :=
  modify fun document => { document with scene := change document.scene }

/-- Changes the scene and finds something out, or fails and changes nothing. -/
def attempt {α : Type} (change : Scene → Except Fault (Scene × α)) : Change α :=
  fun document =>
    match change document.scene with
    | .ok (scene, result) => .ok result { document with scene }
    | .error fault => .error fault document

/-- Finds something out about the scene, or fails. -/
def consult {α : Type} (question : Scene → Except Fault α) : Change α :=
  attempt fun scene => (question scene).map (scene, ·)

/-- Sees to it that a number is never given out again. -/
def reserve (id : OwnerId) : Change Unit := fun document =>
  match document.reserve id with
  | .ok reserved => .ok () reserved
  | .error fault => .error fault document

/-- Takes an owner out of its slot and tells which it was. -/
def detach (id : OwnerId) : Change Slot :=
  attempt fun scene => scene.detach id

/-- Attaches an owner at a slot. -/
def attach (id : OwnerId) (slot : Slot) : Change Unit :=
  attempt fun scene => (scene.attach id slot).map (·, ())

/-- Stores a value in the property that holds a reference. -/
def assign (reference : Reference) (value : Value) : Change Unit :=
  attempt fun scene =>
    (scene.store reference.owner reference.property value).map (·, ())

end Change

namespace Transition

/-- Makes a change to some owners and the lists of a scene, and remembers it.
When it fails, the owners and lists are put back. -/
def record (touched : OwnerSet) (change : Change Unit) : Change Transition :=
  fun document =>
    match change document with
    | .ok () changed =>
      .ok (.between document.scene changed.scene touched) changed
    | .error fault left =>
      .error fault
        { left with
          scene :=
            (Checkpoint.capture document.scene touched).restore left.scene }

end Transition

namespace Step

variable {κ α : Type}

/-- A step that changes the scene and what the command remembers, or fails and
changes nothing. -/
def ofScene (command : κ) (document : Document) :
    Except Fault (κ × Scene × α) → Step κ Document α
  | .ok (remembered, scene, result) =>
    ⟨remembered, { document with scene }, .ok result⟩
  | .error fault => failed command document fault

/-- A step back that changes the scene, or fails and changes nothing. -/
def backTo (command : κ) (document : Document) :
    Except Fault Scene → Step κ Document Unit
  | .ok scene => ⟨command, { document with scene }, .ok ()⟩
  | .error fault => failed command document fault

/-- A step that makes a change for the first time and remembers it. -/
def first
    (command : κ)
    (document : Document)
    (touched : OwnerSet)
    (change : Change Unit)
    (remember : Transition → κ) : Step κ Document Outcome :=
  match Transition.record touched change document with
  | .ok transition changed => ⟨remember transition, changed, .ok .changed⟩
  | .error fault left => failed command left fault

/-- A step that makes a remembered change again. -/
def again (command : κ) (document : Document) (transition : Transition) :
    Step κ Document Outcome :=
  ⟨command, { document with scene := transition.redo document.scene },
    .ok .changed⟩

/-- A step that takes a remembered change back, if there was one. -/
def back (command : κ) (document : Document) :
    Option Transition → Step κ Document Unit
  | some transition =>
    ⟨command, { document with scene := transition.undo document.scene }, .ok ()⟩
  | none => ⟨command, document, .ok ()⟩

end Step
end MotionScene
