import MotionScene.Command.Edit
import MotionScene.History.Basic

/-!
# Editors

An editor holds an open document and its history.  Properties can be read and
set by name in the plain shape that scripts use.
-/

namespace MotionScene

/-- A type of commands that has every edit of a document. -/
class EditCommand (κ : Type) extends Reversible κ Document where
  /-- The command of an edit. -/
  ofEdit : Edit → κ

instance : EditCommand Edit where
  ofEdit := id

/-- An open document with its history. -/
structure Editor (κ : Type) where
  settings : Settings
  document : Document
  history : History κ

namespace Editor

variable {κ : Type}

/-- An editor for a document, with an empty history. -/
def ofDocument (settings : Settings) (document : Document) : Editor κ :=
  ⟨settings, document, .new settings.history⟩

/-- An editor for a new document. -/
def new (id : DocumentId) (settings : Settings) : Editor κ :=
  ofDocument settings (.new id settings)

/-- The editor with another document and no history. -/
def load (editor : Editor κ) (document : Document) : Editor κ :=
  { editor with document, history := editor.history.clear }

/-- The editor with a new document and no history. -/
def close (editor : Editor κ) (id : DocumentId) : Editor κ :=
  editor.load (.new id editor.settings)

/-- The editor with a number given out, and a new owner of that number. -/
def createOwner (editor : Editor κ) (kind : OwnerKind) :
    Except Fault (Editor κ × Owner) := do
  let (document, owner) ← editor.document.createOwner kind
  return ({ editor with document }, owner)

/-- The editor with the clock moved, which is no entry of the history. -/
def moveClock (editor : Editor κ) (move : Clock → Clock) : Editor κ :=
  { editor with
    document := { editor.document with clock := move editor.document.clock } }

/-- Opens a group in the history. -/
def beginGroup (editor : Editor κ) (label : String) :
    Except Fault (Editor κ × ScopeToken) := do
  let (history, token) ← editor.history.beginGroup label
  return ({ editor with history }, token)

/-- Closes the innermost group of the history. -/
def endGroup (editor : Editor κ) (token : ScopeToken) :
    Except Fault (Editor κ × Outcome) := do
  let (history, outcome) ← editor.history.endGroup token
  return ({ editor with history }, outcome)

/-- What a step of the history makes of the editor, and its result. -/
def follow {α : Type} (editor : Editor κ) (step : Step (History κ) Document α) :
    Editor κ × Except Fault α :=
  ({ editor with document := step.state, history := step.command }, step.result)

variable [EditCommand κ]

/-- Carries an entry out. -/
def push (editor : Editor κ) (entry : Entry κ) :
    Editor κ × Except Fault Outcome :=
  editor.follow (editor.history.push editor.document entry)

/-- Takes the last entry back. -/
def undo (editor : Editor κ) : Editor κ × Except Fault Unit :=
  editor.follow (editor.history.undo editor.document)

/-- Carries the next entry out again. -/
def redo (editor : Editor κ) : Editor κ × Except Fault Unit :=
  editor.follow (editor.history.redo editor.document)

/-! ## Properties by name -/

/-- The value of a property where the clock stands. -/
def get (editor : Editor κ) (address : PropertyAddress) : Except Fault Value :=
  editor.document.value address

/-- The value of a property in the plain shape. -/
def getPlain (editor : Editor κ) (address : PropertyAddress) :
    Except Fault Json :=
  (editor.get address).map Value.toPlain

/-- Assigns a value to a property. -/
def set (editor : Editor κ) (address : PropertyAddress) (value : Value) :
    Editor κ × Except Fault Outcome :=
  editor.push (.single (EditCommand.ofEdit
    (.setProperty (.new [address.owner] address.property value))))

/-- The kind that a plain value looks like. -/
def apparentKind : Json → ValueKind
  | .bool _ => .bool
  | .int _ => .integer
  | .float _ => .float
  | .str _ => .string
  | .arr _ => .floatVector
  | .null | .obj _ | .unreadable => .reference

/-- A value of the kind of a property, read from the plain shape. -/
def plainValue (editor : Editor κ) (address : PropertyAddress) (tree : Json) :
    Except Fault Value := do
  let property ← editor.document.scene.property address
  match Value.ofPlain? property.kind tree with
  | some value => return value
  | none =>
    throw (.typeMismatch address.property property.kind (apparentKind tree))

/-- Assigns a value in the plain shape to a property. -/
def setPlain (editor : Editor κ) (address : PropertyAddress) (tree : Json) :
    Editor κ × Except Fault Outcome :=
  match editor.plainValue address tree with
  | .ok value => editor.set address value
  | .error fault => (editor, .error fault)

end Editor
end MotionScene
