import MotionScene.Number.Layout
import MotionScene.Settings.Basic
import MotionScene.Toml.Parser

/-!
# Settings in TOML

Settings are read from a document of three tables.  Everything has a default,
and names that are not known are ignored, though numbers under them have to be
readable.  A table of settings may also be written as the array of its values in
order, of which those left over are not looked at, and a date or time in its
place names no settings.
-/

namespace MotionScene

namespace Settings

/-- A setting with a value for when it is not written. -/
def setting? {α : Type} (value : α) (decode : Toml → Option α) :
    Option Toml → Option α
  | none => some value
  | some tree => decode tree

/-- The values under some names, absent where not written. -/
def values? (names : List String) (entries : List (String × Toml)) :
    Option (List (Option Toml)) :=
  if entries.all fun entry => names.contains entry.1 || entry.2.isReadable then
    some (names.map fun name => entries.lookup name)
  else none

/-- The values of the named settings of a table. -/
def group? (names : List String) : Toml → Option (List (Option Toml))
  | .table entries => values? names entries
  | .array items => some ((List.range names.length).map fun i => items[i]?)
  | .moment => some (names.map fun _ => none)
  | _ => none

/-- A whole number within bounds. -/
def within? (low high : Int) : Toml → Option Int
  | .integer n => if low ≤ n ∧ n ≤ high then some n else none
  | _ => none

/-- A whole number of 32 bits. -/
def frame? (tree : Toml) : Option Int32 :=
  (within? (-2147483648) 2147483647 tree).map Int32.ofInt

/-- A whole number of 64 bits. -/
def integer? (tree : Toml) : Option Int64 :=
  (within? (-9223372036854775808) 9223372036854775807 tree).map Int64.ofInt

/-- A natural number of 64 bits. -/
def count? (tree : Toml) : Option Nat :=
  (within? 0 18446744073709551615 tree).map Int.toNat

/-- A double; whole numbers are rounded to the nearest one. -/
def float? : Toml → Option Float
  | .float x => some x
  | .integer n =>
    (within? (-9223372036854775808) 18446744073709551615 (.integer n)).map
      Number.ofInt
  | _ => none

/-- A play mode: its name, or a table with that name over nothing. -/
def playMode? : Toml → Option PlayMode
  | .string name => PlayMode.ofName? name
  | .table [(name, .table [])] => PlayMode.ofName? name
  | .table [(name, .array [])] => PlayMode.ofName? name
  | _ => none

/-- The settings of the history; what is missing has its default. -/
def history? (tree : Toml) : Option HistorySettings := do
  match ← group? ["max_entries"] tree with
  | [maxEntries] => return ⟨← setting? 1000 count? maxEntries⟩
  | _ => none

/-- The settings of the clock; what is missing has its default. -/
def animation? (tree : Toml) : Option AnimationSettings := do
  match ← group? ["start_frame", "end_frame", "fps", "play_mode"] tree with
  | [startFrame, endFrame, fps, playMode] =>
    return ⟨← setting? 1 frame? startFrame, ← setting? 100 frame? endFrame,
      ← setting? 24.0 float? fps, ← setting? .repeat playMode? playMode⟩
  | _ => none

/-- The settings of paths; what is missing has its default. -/
def paths? (tree : Toml) : Option PathSettings := do
  match ← group? ["ellipse_segments"] tree with
  | [ellipseSegments] => return ⟨← setting? 4 integer? ellipseSegments⟩
  | _ => none

/-- The settings of a TOML text. -/
def ofText? (text : String) : Option Settings := do
  match ← values? ["history", "animation", "paths"] (← Toml.parse? text) with
  | [history, animation, paths] =>
    return ⟨← setting? {} history? history, ← setting? {} animation? animation,
      ← setting? {} paths? paths⟩
  | _ => none

/-- The settings as TOML text. -/
def text (settings : Settings) : String :=
  let animation := settings.animation
  "[history]\nmax_entries = " ++ Nat.repr settings.history.maxEntries ++
    "\n\n[animation]\nstart_frame = " ++ toString animation.startFrame.toInt ++
    "\nend_frame = " ++ toString animation.endFrame.toInt ++
    "\nfps = " ++ Number.text .settings animation.fps ++
    "\nplay_mode = \"" ++ animation.playMode.name ++
    "\"\n\n[paths]\nellipse_segments = " ++
    toString settings.paths.ellipseSegments.toInt ++ "\n"

/-- Why settings could not be loaded. -/
inductive LoadError where
  | unreadable
  | refused (objection : Objection)
deriving DecidableEq, Repr

/-- The usable settings of a TOML text. -/
def load (text : String) : Except LoadError Settings :=
  match ofText? text with
  | none => .error .unreadable
  | some settings =>
    match settings.objection? with
    | some objection => .error (.refused objection)
    | none => .ok settings

end Settings
end MotionScene
