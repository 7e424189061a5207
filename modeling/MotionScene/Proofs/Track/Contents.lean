import Mathlib.Data.List.Induction
import Mathlib.Data.List.Nodup
import MotionScene.Proofs.Track.Keyframes

/-!
# A track maps frames to keyframes

Keyframes are set and removed one by one, or replaced all at once.  After any
number of such calls on a new track the keyframes ascend, and the keyframe at a
frame is the one that was last put there and has not been taken away since.
-/

namespace MotionScene
namespace Track

/-- A call that changes the keyframes of a track. -/
inductive Call where
  | upsert (keyframe : Keyframe)
  | remove (frame : Int32)
  | replaceAll (keyframes : List Keyframe)
deriving DecidableEq, Repr

/-- What a call takes out of a track. -/
inductive Displaced where
  | one (keyframe : Option Keyframe)
  | all (keyframes : List Keyframe)
deriving DecidableEq, Repr

/-- The track after a call, whether it succeeded or was refused, and what the
call answers. -/
def perform (track : Track) : Call → Track × Except Fault Displaced
  | .upsert keyframe =>
    match track.upsert keyframe with
    | .ok (changed, old) => (changed, .ok (.one old))
    | .error fault => (track, .error fault)
  | .remove frame =>
    let (changed, old) := track.remove frame
    (changed, .ok (.one old))
  | .replaceAll keyframes =>
    match track.replaceAll keyframes with
    | .ok (changed, old) => (changed, .ok (.all old))
    | .error fault => (track, .error fault)

/-- The track after a number of calls. -/
def run (track : Track) (calls : List Call) : Track :=
  calls.foldl (fun track call => (track.perform call).1) track

/-- A keyframe matches the kind of a track by its value and the number of
components of its slopes. -/
def MatchesKind (kind : ValueKind) (keyframe : Keyframe) : Prop :=
  keyframe.value.kind = kind ∧ ∀ tangents ∈ keyframe.tangents,
    tangents.incoming.length = kind.componentCount ∧
      tangents.outgoing.length = kind.componentCount

instance (kind : ValueKind) (keyframe : Keyframe) :
    Decidable (MatchesKind kind keyframe) :=
  inferInstanceAs (Decidable (_ ∧ _))

namespace Call

/-- A call gives a track keyframes that fit it, and all of them at different
frames. -/
def Accepted (kind : ValueKind) : Call → Prop
  | upsert keyframe => MatchesKind kind keyframe
  | remove _ => True
  | replaceAll keyframes =>
    (∀ keyframe ∈ keyframes, MatchesKind kind keyframe) ∧
      (keyframes.map Keyframe.frame).Nodup

instance (kind : ValueKind) : DecidablePred (Accepted kind)
  | upsert keyframe => inferInstanceAs (Decidable (MatchesKind kind keyframe))
  | remove _ => inferInstanceAs (Decidable True)
  | replaceAll _ => inferInstanceAs (Decidable (_ ∧ _))

/-- The frames whose keyframes a call is about. -/
def Addresses (frame : Int32) : Call → Prop
  | upsert keyframe => keyframe.frame = frame
  | remove removed => removed = frame
  | replaceAll _ => True

/-- What is at a frame after a call, given what was there before. -/
def effect (frame : Int32) (old : Option Keyframe) : Call → Option Keyframe
  | upsert keyframe => if keyframe.frame = frame then some keyframe else old
  | remove removed => if removed = frame then none else old
  | replaceAll keyframes =>
    keyframes.find? fun keyframe => keyframe.frame = frame

/-- What a call displaces in a track. -/
def displaced (track : Track) : Call → Displaced
  | upsert keyframe => .one (track.keyframe? keyframe.frame)
  | remove frame => .one (track.keyframe? frame)
  | replaceAll _ => .all track.keyframes

end Call

/-- The keyframe that was last put at a frame and not taken away since, going
back through the calls from the last one; a call that is refused does not
count. -/
def latest (kind : ValueKind) (frame : Int32) : List Call → Option Keyframe
  | [] => none
  | call :: earlier =>
    if call.Accepted kind then call.effect frame (latest kind frame earlier)
    else latest kind frame earlier

variable {track : Track} {keyframe old : Keyframe}
  {keyframes others before after : List Keyframe} {frame : Int32} {call : Call}

theorem check_eq_ok_iff_matchesKind :
    track.check keyframe = .ok () ↔ MatchesKind track.kind keyframe :=
  check_eq_ok_iff

/-! ## Keyframes at a frame -/

/-- Among keyframes at different frames, the first one at a frame is the only
one. -/
theorem find?_eq_some_iff_of_nodup
    (nodup : (keyframes.map Keyframe.frame).Nodup) :
    (keyframes.find? fun other => other.frame = frame) = some keyframe ↔
      keyframe ∈ keyframes ∧ keyframe.frame = frame := by
  constructor
  · intro found
    exact ⟨List.mem_of_find?_eq_some found,
      by simpa using List.find?_some found⟩
  · rintro ⟨member, rfl⟩
    have isSome :
        (keyframes.find? fun other =>
          other.frame = keyframe.frame).isSome = true :=
      List.find?_isSome.2 ⟨keyframe, member, by simp⟩
    obtain ⟨other, found⟩ := Option.isSome_iff_exists.1 isSome
    rw [found,
      List.inj_on_of_nodup_map nodup (List.mem_of_find?_eq_some found) member
        (by simpa using List.find?_some found)]

/-- Where keyframes are at different frames, their order does not matter. -/
theorem find?_eq_of_perm
    (perm : keyframes.Perm others)
    (nodup : (keyframes.map Keyframe.frame).Nodup) :
    (keyframes.find? fun other => other.frame = frame) =
      others.find? fun other => other.frame = frame := by
  have nodupOthers := (perm.map Keyframe.frame).nodup_iff.1 nodup
  refine Option.ext fun keyframe => ?_
  rw [find?_eq_some_iff_of_nodup nodup, find?_eq_some_iff_of_nodup nodupOthers,
    perm.mem_iff]

/-- A keyframe among others that are at other frames. -/
theorem find?_middle
    (earlier : ∀ other ∈ before, other.frame < keyframe.frame) :
    ((before ++ keyframe :: after).find? fun other => other.frame = frame) =
      if keyframe.frame = frame then some keyframe
      else (before ++ after).find? fun other => other.frame = frame := by
  rw [List.find?_append, List.find?_append]
  split
  · next here =>
    have missing : (before.find? fun other => other.frame = frame) = none := by
      refine List.find?_eq_none.2 fun other member => ?_
      simpa [← here] using Int32.ne_of_lt (earlier other member)
    rw [missing, List.find?_cons_of_pos (by simpa using here), Option.none_or]
  · next elsewhere => rw [List.find?_cons_of_neg (by simpa using elsewhere)]

/-! ## One call -/

/-- A call gives a track other keyframes: it answers what it displaces, the
keyframes ascend, and there is at each frame what the call leaves there. -/
structure Changes (track : Track) (call : Call) (keyframes : List Keyframe) :
    Prop where
  answer : track.perform call =
    ({ track with keyframes }, .ok (call.displaced track))
  ascends : Ascends keyframes
  contents : ∀ frame, (keyframes.find? fun other => other.frame = frame) =
    call.effect frame (track.keyframe? frame)

theorem changes_upsert
    (ascends : Ascends track.keyframes)
    (matching : MatchesKind track.kind keyframe) :
    ∃ keyframes, track.Changes (.upsert keyframe) keyframes := by
  have checked := check_eq_ok_iff_matchesKind.2 matching
  rcases split_at ascends keyframe.frame with
    ⟨before, old, after, shape, same⟩ | ⟨before, after, shape, earlier, later⟩
  · have split : Ascends (before ++ old :: after) := shape ▸ ascends
    have replaced : Ascends (before ++ keyframe :: after) :=
      split.replace same.symm
    have found : track.keyframe? keyframe.frame = some old := by
      rw [keyframe?_eq_find? ascends, shape,
        find?_middle split.around.1, if_pos same]
    refine ⟨before ++ keyframe :: after, ?_, replaced, ?_⟩
    · rw [perform, upsert_hit ascends shape checked same.symm,
        Call.displaced, found]
    · intro frame
      rw [keyframe?_eq_find? ascends, shape, find?_middle replaced.around.1,
        find?_middle split.around.1, Call.effect, same]
      split <;> rfl
  · have missing : track.keyframe? keyframe.frame = none := by
      rw [keyframe?, (position?_miss ascends shape earlier later).1]
      rfl
    refine ⟨before ++ keyframe :: after, ?_,
      (shape ▸ ascends).insert earlier later, ?_⟩
    · rw [perform, upsert_miss ascends shape checked earlier later,
        Call.displaced, missing]
    · intro frame
      rw [keyframe?_eq_find? ascends, shape, find?_middle earlier, Call.effect]

theorem changes_remove (ascends : Ascends track.keyframes) (frame : Int32) :
    ∃ keyframes, track.Changes (.remove frame) keyframes := by
  rcases split_at ascends frame with
    ⟨before, old, after, shape, rfl⟩ | ⟨before, after, shape, earlier, later⟩
  · have split : Ascends (before ++ old :: after) := shape ▸ ascends
    have around := split.around
    have found : track.keyframe? old.frame = some old := by
      rw [keyframe?_eq_find? ascends, shape, find?_middle around.1, if_pos rfl]
    refine ⟨before ++ after, ?_, split.remove, ?_⟩
    · rw [perform, remove_hit ascends shape, Call.displaced, found]
    · intro frame
      rw [keyframe?_eq_find? ascends, shape, find?_middle around.1, Call.effect]
      split
      · next here =>
        subst here
        refine List.find?_eq_none.2 fun other member => ?_
        rcases List.mem_append.1 member with isEarlier | isLater
        · simpa using Int32.ne_of_lt (around.1 other isEarlier)
        · simpa using (Int32.ne_of_lt (around.2 other isLater)).symm
      · rfl
  · have unfound := (position?_miss ascends shape earlier later).1
    have missing : track.keyframe? frame = none := by
      rw [keyframe?, unfound]
      rfl
    refine ⟨track.keyframes, ?_, ascends, ?_⟩
    · rw [perform, remove, unfound, Call.displaced, missing]
    · intro other
      rw [← keyframe?_eq_find? ascends, Call.effect]
      split
      · next here => rw [← here, missing]
      · rfl

theorem changes_replaceAll
    (matching : ∀ keyframe ∈ keyframes, MatchesKind track.kind keyframe)
    (nodup : (keyframes.map Keyframe.frame).Nodup) :
    track.Changes (.replaceAll keyframes) (sortKeyframes keyframes) := by
  have checked : keyframes.forM track.check = .ok () :=
    Attempt.forM_eq_ok_iff.2 fun keyframe member =>
      check_eq_ok_iff_matchesKind.2 (matching keyframe member)
  have distinct := firstRepeat?_sortKeyframes_eq_none_iff.2 nodup
  refine ⟨?_, ascends_of_firstRepeat? (sortKeyframes_sorted keyframes) distinct,
    fun frame => ?_⟩
  · rw [perform, replaceAll, checked]
    simp only [Attempt.ok_bind, distinct, Call.displaced]
  · exact (find?_eq_of_perm (sortKeyframes_perm keyframes).symm nodup).symm

theorem changes_of_accepted
    (ascends : Ascends track.keyframes)
    (accepted : call.Accepted track.kind) :
    ∃ keyframes, track.Changes call keyframes := by
  cases call with
  | upsert keyframe => exact changes_upsert ascends accepted
  | remove frame => exact changes_remove ascends frame
  | replaceAll keyframes => exact ⟨_, changes_replaceAll accepted.1 accepted.2⟩

/-- A call that is refused leaves the track as it is. -/
theorem perform_of_refused (refused : ¬ call.Accepted track.kind) :
    ∃ fault, track.perform call = (track, .error fault) := by
  cases call with
  | upsert keyframe =>
      cases isChecked : track.check keyframe with
      | ok => exact absurd (check_eq_ok_iff_matchesKind.1 isChecked) refused
      | error fault =>
          exact ⟨fault, by rw [perform, upsert, isChecked, Attempt.error_bind]⟩
  | remove frame => exact absurd trivial refused
  | replaceAll keyframes =>
      cases isChecked : keyframes.forM track.check with
      | error fault =>
          exact ⟨fault,
            by rw [perform, replaceAll, isChecked, Attempt.error_bind]⟩
      | ok =>
          have matching : ∀ keyframe ∈ keyframes,
              MatchesKind track.kind keyframe :=
            fun keyframe member =>
              check_eq_ok_iff_matchesKind.1
                (Attempt.forM_eq_ok_iff.1 isChecked keyframe member)
          cases isRepeat : firstRepeat? (sortKeyframes keyframes) with
          | none =>
              exact absurd
                ⟨matching,
                  firstRepeat?_sortKeyframes_eq_none_iff.1 isRepeat⟩ refused
          | some frame =>
              refine ⟨.keyframeExists frame, ?_⟩
              rw [perform, replaceAll, isChecked]
              simp only [Attempt.ok_bind, isRepeat]

/-! ## Any number of calls -/

theorem run_concat (calls : List Call) (call : Call) :
    track.run (calls ++ [call]) = ((track.run calls).perform call).1 := by
  rw [run, List.foldl_append]
  rfl

/-- After any calls the keyframes ascend, and at each frame there is the
keyframe last put there. -/
theorem run_spec
    (target : PropertyAddress)
    (kind : ValueKind)
    (interpolation : Interpolation)
    (calls : List Call) :
    ((new target kind interpolation).run calls).kind = kind ∧
      Ascends ((new target kind interpolation).run calls).keyframes ∧
      ∀ frame, ((new target kind interpolation).run calls).keyframe? frame =
        latest kind frame calls.reverse := by
  induction calls using List.reverseRecOn with
  | nil => exact ⟨rfl, List.Pairwise.nil, fun frame => rfl⟩
  | append_singleton calls call inductionHypothesis =>
      obtain ⟨sameKind, ascends, contents⟩ := inductionHypothesis
      simp only [run_concat, List.reverse_append, List.reverse_singleton,
        List.singleton_append, latest]
      generalize (new target kind interpolation).run calls =
        track at sameKind ascends contents
      subst sameKind
      by_cases accepted : call.Accepted track.kind
      · obtain ⟨keyframes, changes⟩ := changes_of_accepted ascends accepted
        rw [changes.answer]
        refine ⟨rfl, changes.ascends, fun frame => ?_⟩
        rw [@keyframe?_eq_find? { track with keyframes } _ changes.ascends,
          changes.contents, contents, if_pos accepted]
      · obtain ⟨fault, unchanged⟩ := perform_of_refused accepted
        rw [unchanged]
        refine ⟨rfl, ascends, fun frame => ?_⟩
        rw [contents, if_neg accepted]

/-- A track is a map from frames to keyframes that is kept in order: after any
calls on a new track the keyframes ascend, the keyframe at a frame is the one
last put there, and a further call answers what it displaces, leaves the frames
alone that it is not about, and changes nothing when it is refused. -/
theorem finite_map_of_calls
    (target : PropertyAddress)
    (kind : ValueKind)
    (interpolation : Interpolation)
    (calls : List Call) :
    let track := (new target kind interpolation).run calls
    Ascends track.keyframes ∧
      (∀ frame, track.keyframe? frame = latest kind frame calls.reverse) ∧
      (∀ call : Call, call.Accepted kind →
        (track.perform call).2 = .ok (call.displaced track)) ∧
      (∀ call : Call, ¬ call.Accepted kind →
        ∃ fault, track.perform call = (track, .error fault)) ∧
      ∀ (call : Call) (frame : Int32), ¬ call.Addresses frame →
        (track.perform call).1.keyframe? frame = track.keyframe? frame := by
  obtain ⟨sameKind, ascends, contents⟩ :=
    run_spec target kind interpolation calls
  intro track
  change track.kind = kind at sameKind
  refine ⟨ascends, contents, ?_, ?_, ?_⟩
  · intro call accepted
    obtain ⟨keyframes, changes⟩ :=
      changes_of_accepted ascends (sameKind ▸ accepted)
    rw [changes.answer]
  · intro call refused
    exact perform_of_refused (sameKind ▸ refused)
  · intro call frame elsewhere
    by_cases accepted : call.Accepted track.kind
    · obtain ⟨keyframes, changes⟩ := changes_of_accepted ascends accepted
      rw [changes.answer,
        @keyframe?_eq_find? { track with keyframes } _ changes.ascends,
        changes.contents]
      cases call with
      | upsert keyframe => exact if_neg elsewhere
      | remove removed => exact if_neg elsewhere
      | replaceAll keyframes => exact absurd trivial elsewhere
    · obtain ⟨fault, unchanged⟩ := perform_of_refused accepted
      rw [unchanged]

end Track
end MotionScene
