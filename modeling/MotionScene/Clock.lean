import MotionScene.Settings.Basic

/-!
# The clock of a scene

The clock stands at a frame and runs over a range of frames.  Moving it is no
change of the document.
-/

namespace MotionScene

/-- The range of frames, the current frame and the pace. -/
structure Clock where
  start : Int32
  stop : Int32
  current : Int32
  fps : Float
  playMode : PlayMode
deriving DecidableEq, Repr

namespace Clock

/-- The later of two frames. -/
def later (a b : Int32) : Int32 :=
  if a < b then b else a

/-- The earlier of two frames. -/
def earlier (a b : Int32) : Int32 :=
  if b < a then b else a

/-- The clock of a new document, at its first frame. -/
def new (settings : AnimationSettings) : Clock :=
  ⟨settings.startFrame, later settings.endFrame settings.startFrame,
    settings.startFrame, settings.fps, settings.playMode⟩

/-- The clock with another first frame; the last frame gives way. -/
def setStart (clock : Clock) (frame : Int32) : Clock :=
  { clock with start := frame, stop := later clock.stop frame }

/-- The clock with another last frame; the first frame gives way. -/
def setStop (clock : Clock) (frame : Int32) : Clock :=
  { clock with start := earlier clock.start frame, stop := frame }

/-- The clock at another frame, which may lie outside the range. -/
def setCurrent (clock : Clock) (frame : Int32) : Clock :=
  { clock with current := frame }

/-- The clock with another play mode. -/
def setPlayMode (clock : Clock) (mode : PlayMode) : Clock :=
  { clock with playMode := mode }

/-- The frame after one; the greatest frame is followed by itself. -/
def successor (frame : Int32) : Int32 :=
  if frame = 2147483647 then frame else frame + 1

/-- The clock one frame further; past the last frame the play mode decides. -/
def advance (clock : Clock) : Clock :=
  let next := successor clock.current
  let current :=
    if clock.stop < next then
      match clock.playMode with
      | .repeat => clock.start
      | .stop => clock.stop
    else next
  { clock with current }

/-- The time since the first frame, in seconds; the difference of frames wraps
at 32 bits. -/
def seconds (clock : Clock) : Float :=
  Number.ofInt (clock.current - clock.start).toInt / clock.fps

/-- Whether two clocks are equal, their rates as numbers. -/
def agrees (a b : Clock) : Bool :=
  a.start = b.start && a.stop = b.stop && a.current = b.current &&
    a.fps == b.fps && a.playMode = b.playMode

/-- The clock as stored documents have it. -/
def toJson (clock : Clock) : Json :=
  .obj [("start", .int clock.start.toInt), ("end", .int clock.stop.toInt),
    ("current", .int clock.current.toInt), ("fps", .ofFloat clock.fps),
    ("play_mode", clock.playMode.toJson)]

/-- The clock of a record with all five fields. -/
def ofJson? (tree : Json) : Option Clock := do
  match ← tree.record? ["start", "end", "current", "fps", "play_mode"] with
  | [start, stop, current, fps, playMode] =>
    return ⟨← Json.required Json.int32? start, ← Json.required Json.int32? stop,
      ← Json.required Json.int32? current, ← Json.required Json.float? fps,
      ← Json.required PlayMode.ofJson? playMode⟩
  | _ => none

end Clock
end MotionScene
