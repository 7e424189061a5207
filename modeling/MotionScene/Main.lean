import MotionScene.Console.Run

/-!
# The command line program

Reads the files that a task names, prints what it says and saves what it made.
-/

namespace MotionScene
namespace Console

/-- The text of a file, if it can be read. -/
def readText (path : String) : IO (Option String) := do
  try return some (← IO.FS.readFile path) catch _ => return none

/-- Whether a text could be written to a file. -/
def writeText (path text : String) : IO Bool := do
  try
    IO.FS.writeFile path text
    return true
  catch _ => return false

/-- A random identifier, marked as such in its version and variant. -/
def randomId : IO DocumentId := do
  let mut bits : Nat := 0
  for _ in [0:16] do
    bits := bits * 256 + (← IO.rand 0 255)
  let random := BitVec.ofNat 128 bits
  let version := (random &&& ~~~(BitVec.ofNat 128 0xf <<< 76)) |||
    (BitVec.ofNat 128 4 <<< 76)
  let variant :=
    (version &&& ~~~(BitVec.ofNat 128 3 <<< 62)) ||| (BitVec.ofNat 128 2 <<< 62)
  return ⟨variant⟩

/-- Prints a response and gives its exit code. -/
def finish (response : Response) : IO UInt32 := do
  (← IO.getStdout).putStr response.output
  if !response.errors.isEmpty then (← IO.getStderr).putStrLn response.errors
  return response.exitCode.toUInt32

/-- The files a task reads. -/
def sources : Task → List String
  | .new _ => []
  | .info path | .check path | .eval path _ _ | .set path _ _ _ _ => [path]

/-- Carries a task out. -/
def perform (settings : Option String) (task : Task) : IO UInt32 := do
  let texts ← (settings.toList ++ sources task).mapM fun path => do
    return (path, ← readText path)
  let read (path : String) : Option String := (texts.lookup path).join
  match planWith (← randomId) read settings task with
  | .error message => finish (failed "" message)
  | .ok ⟨output, none⟩ => finish (done output)
  | .ok ⟨output, some (path, text)⟩ =>
    if ← writeText path text then finish (done output)
    else finish (failed output (writeFailure path))

/-- Carries a command line out. -/
def execute (arguments : List String) : IO UInt32 := do
  match request? arguments with
  | none =>
    (← IO.getStderr).putStrLn
      "usage: [--config FILE] new|info|check|eval|set FILE [OPTIONS]"
    finish usage
  | some .version => finish versionResponse
  | some (.run settings task) => perform settings task

end Console
end MotionScene

/-- The program: a command line in, an exit code out. -/
def main (arguments : List String) : IO UInt32 :=
  MotionScene.Console.execute arguments
