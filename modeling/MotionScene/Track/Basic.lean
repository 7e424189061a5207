import MotionScene.Fault
import MotionScene.Track.Keyframe

/-!
# Tracks

A track holds the keyframes of one property, in ascending order of frames
without repetition.  Keyframes are looked up by a halving search; the search is
total, so that a track whose keyframes are out of order still gives an answer.
-/

namespace MotionScene

/-- The keyframes of one property. -/
structure Track where
  target : PropertyAddress
  kind : ValueKind
  interpolation : Interpolation
  keyframes : List Keyframe
deriving DecidableEq, Repr

namespace Track

/-- A track without keyframes. -/
def new
    (target : PropertyAddress)
    (kind : ValueKind)
    (interpolation : Interpolation) :
    Track :=
  ⟨target, kind, interpolation, []⟩

/-- Whether two tracks are equal, doubles as numbers. -/
def agrees (a b : Track) : Bool :=
  a.target = b.target && a.kind = b.kind && a.interpolation = b.interpolation &&
    Agreement.list Keyframe.agrees a.keyframes b.keyframes

/-- The frames that are keyed. -/
def frames (track : Track) : List Int32 :=
  track.keyframes.map Keyframe.frame

/-! ## Searching -/

/-- Halves a stretch of positions until one is left: the later half is taken
unless its first position is past what is sought. -/
def halve (past : Nat → Bool) : Nat → Nat → Nat → Nat
  | 0, start, _ => start
  | fuel + 1, start, size =>
    if size ≤ 1 then start
    else
      let half := size / 2
      halve past fuel (if past (start + half) then start else start + half)
        (size - half)

/-- Whether the keyframe at a position is later than a frame. -/
def isPast (keyframes : List Keyframe) (frame : Int32)
    (position : Nat) : Bool :=
  match keyframes[position]? with
  | some keyframe => frame < keyframe.frame
  | none => false

/-- The position of the last keyframe that is not later than a frame, or the
first position. -/
def landing (keyframes : List Keyframe) (frame : Int32) : Nat :=
  halve (isPast keyframes frame) keyframes.length 0 keyframes.length

/-- How many keyframes are not later than a frame. -/
def countUpTo (keyframes : List Keyframe) (frame : Int32) : Nat :=
  let position := landing keyframes frame
  match keyframes[position]? with
  | some keyframe => if keyframe.frame ≤ frame then position + 1 else position
  | none => position

/-- The position of the keyframe at a frame. -/
def position? (track : Track) (frame : Int32) : Option Nat :=
  let position := landing track.keyframes frame
  match track.keyframes[position]? with
  | some keyframe => if keyframe.frame = frame then some position else none
  | none => none

/-- The keyframe at a frame. -/
def keyframe? (track : Track) (frame : Int32) : Option Keyframe := do
  track.keyframes[← track.position? frame]?

/-! ## Changing -/

/-- Whether a keyframe fits the kind of the track. -/
def check (track : Track) (keyframe : Keyframe) : Except Fault Unit :=
  if keyframe.value.kind ≠ track.kind then
    .error (.typeMismatch track.target.property track.kind keyframe.value.kind)
  else
    let count := track.kind.componentCount
    match keyframe.tangents with
    | some tangents =>
      if tangents.incoming.length ≠ count ∨
        tangents.outgoing.length ≠ count then
        .error (.invalid (s!"tangents of '{track.target.property}' at frame " ++
          s!"{keyframe.frame.toInt} need {count} component(s)"))
      else .ok ()
    | none => .ok ()

/-- The track with a keyframe put at its frame, and the keyframe that was
there. -/
def upsert (track : Track) (keyframe : Keyframe) :
    Except Fault (Track × Option Keyframe) := do
  track.check keyframe
  match track.position? keyframe.frame with
  | some position =>
    return ({ track with keyframes := track.keyframes.set position keyframe },
      track.keyframes[position]?)
  | none =>
    let position := countUpTo track.keyframes keyframe.frame
    return ({ track with
      keyframes := track.keyframes.insertIdx position keyframe }, none)

/-- The track without the keyframe at a frame, and that keyframe. -/
def remove (track : Track) (frame : Int32) : Track × Option Keyframe :=
  match track.position? frame with
  | some position =>
    ({ track with keyframes := track.keyframes.eraseIdx position },
      track.keyframes[position]?)
  | none => (track, none)

/-- A keyframe put in its place, before those at the same frame. -/
def insertSorted (keyframe : Keyframe) : List Keyframe → List Keyframe
  | [] => [keyframe]
  | other :: rest =>
    if keyframe.frame ≤ other.frame then keyframe :: other :: rest
    else other :: insertSorted keyframe rest

/-- Keyframes in order of frames; those at the same frame keep their order. -/
def sortKeyframes (keyframes : List Keyframe) : List Keyframe :=
  keyframes.foldr insertSorted []

/-- The first frame that two neighbouring keyframes share. -/
def firstRepeat? : List Keyframe → Option Int32
  | a :: b :: rest =>
    if a.frame = b.frame then some a.frame else firstRepeat? (b :: rest)
  | _ => none

/-- The track with other keyframes in place of its own, and those it had. -/
def replaceAll (track : Track) (keyframes : List Keyframe) :
    Except Fault (Track × List Keyframe) := do
  keyframes.forM track.check
  let ordered := sortKeyframes keyframes
  match firstRepeat? ordered with
  | some frame => .error (.keyframeExists frame)
  | none => .ok ({ track with keyframes := ordered }, track.keyframes)

/-! ## Stored form -/

/-- The track as stored documents have it. -/
def toJson (track : Track) : Json :=
  .obj [("target", track.target.toJson), ("kind", track.kind.toJson),
    ("interpolation", track.interpolation.toJson),
    ("keyframes", .ofList Keyframe.toJson track.keyframes)]

/-- The track of a record with all four fields. -/
def ofJson? (tree : Json) : Option Track := do
  match ← tree.record? ["target", "kind", "interpolation", "keyframes"] with
  | [target, kind, interpolation, keyframes] =>
    return ⟨← Json.required PropertyAddress.ofJson? target,
      ← Json.required ValueKind.ofJson? kind,
      ← Json.required Interpolation.ofJson? interpolation,
      ← Json.required (Json.list? Keyframe.ofJson?) keyframes⟩
  | _ => none

end Track
end MotionScene
