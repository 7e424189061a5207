import MotionScene.Console.Arguments
import MotionScene.Console.Demo
import MotionScene.Console.Directory
import MotionScene.Console.Report
import MotionScene.Settings.Stored

/-!
# Running tasks

A task reads its files and says what to print and what to save.  Running a whole
command line in a directory shows what it prints, how it exits and what it
leaves there.
-/

namespace MotionScene
namespace Console

/-- What a task prints, and what it then saves where. -/
structure Plan where
  output : String
  save : Option (String × String) := none

/-- What a command line leaves: the exit code, and what was printed as output
and as errors. -/
structure Response where
  exitCode : Nat
  output : String := ""
  errors : String := ""
deriving DecidableEq, Repr

/-- The response to a command line that makes no sense. -/
def usage : Response :=
  { exitCode := 2 }

/-- The response to the question for the version. -/
def versionResponse : Response :=
  { exitCode := 0, output := "vecta 0.1.0\n" }

/-- The response to a task that went wrong after printing something. -/
def failed (output message : String) : Response :=
  { exitCode := 1, output, errors := "Error: " ++ message }

/-- The response to a task that went well. -/
def done (output : String) : Response :=
  { exitCode := 0, output }

/-- What is said when a file cannot be written. -/
def writeFailure (path : String) : String :=
  s!"failed to write {path}"

/-! ## Tasks -/

/-- The settings of a file, or the defaults. -/
def loadSettings (read : String → Option String) :
    Option String → Except String Settings
  | none => .ok {}
  | some path =>
    match (read path).map Settings.load with
    | some (.ok settings) => .ok settings
    | _ => .error s!"failed to load config: {path}"

/-- The document of a file. -/
def loadDocument
    (read : String → Option String)
    (settings : Settings)
    (path : String) :
    Except String Document :=
  match read path with
  | none => .error s!"failed to read file: {path}"
  | some text =>
    match Snapshot.ofText? text with
    | none => .error s!"failed to parse snapshot: {path}"
    | some snapshot =>
      (Document.ofSnapshot snapshot settings).mapError fun faults =>
        s!"invalid document {path}:\n" ++
          "\n".intercalate (faults.map fun fault => "  - " ++ fault.message)

/-- A result whose fault is worded. -/
def worded {α : Type} (result : Except Fault α) : Except String α :=
  result.mapError Fault.message

/-- The owner of a number or a name. -/
def resolveOwner (scene : Scene) (text : String) : Except String OwnerId :=
  match number? text with
  | some number => .ok ⟨number⟩
  | none =>
    match scene.findByName text with
    | some id => .ok id
    | none => .error s!"no owner named '{text}'"

/-- Sets a property of a document. -/
def planSet
    (settings : Settings)
    (document : Document)
    (path owner property value : String) :
    Except String Plan := do
  let id ← resolveOwner document.scene owner
  match Json.parse? value with
  | none => throw s!"value is not JSON: {value}"
  | some tree =>
    let address : PropertyAddress := ⟨id, property⟩
    let editor : Editor Edit := .ofDocument settings document
    let (editor, result) := editor.setPlain address tree
    let _ ← worded result
    let stored ← worded (editor.getPlain address)
    return ⟨s!"{address.describe} = {stored.text}\n",
      some (path, editor.document.snapshot.text)⟩

/-- What a task prints and saves; new documents get the given identifier. -/
def plan
    (id : DocumentId)
    (read : String → Option String)
    (settings : Settings) :
    Task → Except String Plan
  | .new path => do
    return ⟨"",
      some (path, (← worded (Demo.document id settings)).snapshot.text)⟩
  | .info path => do
    return ⟨← worded (Report.info (← loadDocument read settings path)), none⟩
  | .check path => do
    let document ← loadDocument read settings path
    return ⟨s!"{path}: OK ({document.scene.owners.size} owners)\n", none⟩
  | .eval path frame owner => do
    let document ← loadDocument read settings path
    return ⟨
      ← worded (Report.values document frame (owner.map OwnerId.mk)), none⟩
  | .set path owner property value output => do
    let document ← loadDocument read settings path
    planSet settings document (output.getD path) owner property value

/-- The plan of a task with its settings. -/
def planWith
    (id : DocumentId)
    (read : String → Option String)
    (settings : Option String)
    (task : Task) : Except String Plan := do
  plan id read (← loadSettings read settings) task

/-! ## Command lines -/

/-- Runs a command line in a directory. -/
def run (id : DocumentId) (directory : Directory) (arguments : List String) :
    Response × Directory :=
  match request? arguments with
  | none => (usage, directory)
  | some .version => (versionResponse, directory)
  | some (.run settings task) =>
    match planWith id directory.read? settings task with
    | .error message => (failed "" message, directory)
    | .ok ⟨output, none⟩ => (done output, directory)
    | .ok ⟨output, some (path, text)⟩ =>
      match directory.write? path text with
      | some written => (done output, written)
      | none => (failed output (writeFailure path), directory)

end Console
end MotionScene
