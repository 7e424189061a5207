/-!
# Directories

The files of a directory, held in memory.  A path leads from the directory to a
file in it or further down; one that leads out of it, or ends without a name, is
that of no file.
-/

namespace MotionScene
namespace Console

/-- The files of a directory and of the directories in it, by path. -/
abbrev Directory := List (List String × String)

namespace Directory

/-- Whether a step of a path leads nowhere else. -/
def staysPut (step : String) : Bool :=
  step = "" || step = "."

/-- The steps of a path to a file within the directory. -/
def locate? (path : String) : Option (List String) :=
  let steps := path.splitOn "/"
  if steps.head? = some "" ∨ steps.getLast?.any staysPut ∨ ".." ∈ steps then
    none
  else some (steps.filter fun step => !staysPut step)

/-- Whether a path is that of a directory. -/
def isDirectory (directory : Directory) (steps : List String) : Bool :=
  steps.isEmpty || directory.any fun file =>
    steps.length < file.1.length && file.1.take steps.length = steps

/-- The text of a file. -/
def read? (directory : Directory) (path : String) : Option String :=
  (locate? path).bind fun steps => directory.lookup steps

/-- The directory with a file written, if its place exists. -/
def write? (directory : Directory) (path text : String) : Option Directory := do
  let steps ← locate? path
  if isDirectory directory steps.dropLast && !isDirectory directory steps then
    some ((steps, text) :: directory.filter fun file => file.1 ≠ steps)
  else none

end Directory
end Console
end MotionScene
