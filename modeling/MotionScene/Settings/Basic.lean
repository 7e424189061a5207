import MotionScene.Json.Record

/-!
# Settings

What a user can set for the editor: how much history is kept, the clock of new
documents, and how shapes become paths.
-/

namespace MotionScene

/-- What the clock does past its last frame. -/
inductive PlayMode where
  /-- Start over. -/
  | repeat
  /-- Stay. -/
  | stop
deriving DecidableEq, Repr

namespace PlayMode

/-- The name in stored documents and settings. -/
def name : PlayMode → String
  | .repeat => "repeat"
  | .stop => "stop"

/-- The mode of a name. -/
def ofName? (text : String) : Option PlayMode :=
  [PlayMode.repeat, PlayMode.stop].find? fun mode => mode.name == text

/-- A mode is stored as its name. -/
def toJson (mode : PlayMode) : Json :=
  .str mode.name

/-- The mode of a name, bare or over null. -/
def ofJson? (tree : Json) : Option PlayMode :=
  tree.choice? ofName?

end PlayMode

/-- Settings of the history; a limit of zero keeps everything. -/
structure HistorySettings where
  maxEntries : Nat := 1000
deriving DecidableEq, Repr

/-- Settings of the clock of a new document. -/
structure AnimationSettings where
  startFrame : Int32 := 1
  endFrame : Int32 := 100
  fps : Float := 24.0
  playMode : PlayMode := .repeat
deriving DecidableEq, Repr

/-- Settings of paths made from shapes. -/
structure PathSettings where
  ellipseSegments : Int64 := 4
deriving DecidableEq, Repr

/-- All settings. -/
structure Settings where
  history : HistorySettings := {}
  animation : AnimationSettings := {}
  paths : PathSettings := {}
deriving DecidableEq, Repr

namespace Settings

/-- Why settings cannot be used. -/
inductive Objection where
  | endBeforeStart (stop start : Int32)
  | fpsNotPositive
  | tooFewSegments
deriving DecidableEq, Repr

/-- The wording of an objection. -/
def Objection.message : Objection → String
  | endBeforeStart stop start =>
    s!"animation end_frame {stop.toInt} is before start_frame {start.toInt}"
  | fpsNotPositive => "animation fps must be positive"
  | tooFewSegments => "paths.ellipse_segments must be at least 3"

/-- The first thing wrong with the settings, if any. -/
def objection? (settings : Settings) : Option Objection :=
  if settings.animation.endFrame < settings.animation.startFrame then
    some
      (.endBeforeStart settings.animation.endFrame
        settings.animation.startFrame)
  else if settings.animation.fps ≤ 0.0 then some .fpsNotPositive
  else if settings.paths.ellipseSegments < 3 then some .tooFewSegments
  else none

end Settings
end MotionScene
