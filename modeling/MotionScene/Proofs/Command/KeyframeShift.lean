import MotionScene.Command.KeyframeShift
import MotionScene.Proofs.Command.Animation

/-!
# Moving keyframes is lawful

Once the keyframes of all tracks are planned nothing can fail any more: the
planned keyframes are in order and fit their tracks, and every track is changed
once.
-/

namespace MotionScene
namespace MoveKeyframes

variable {document : Document} {scene : Scene}

/-- A property has a track with the old keyframes, which may have the new
ones. -/
def Planned
    (scene : Scene)
    (item : PropertyAddress × List Keyframe × List Keyframe) :
    Prop :=
  ∃ property track, scene.property item.1 = .ok property ∧
    property.track = some track ∧
    track.keyframes = item.2.1 ∧ Track.Ascends item.2.2 ∧
    ∀ keyframe ∈ item.2.2, track.check keyframe = .ok ()

/-- Whether a keyframe fits a track has nothing to do with its frame. -/
theorem check_shiftSelected
    {track : Track}
    {frames : FrameSet}
    {offset : Int32}
    {keyframe moved : Keyframe}
    (shifted : shiftSelected frames offset keyframe = .ok moved)
    (checked : track.check keyframe = .ok ()) :
    track.check moved = .ok () := by
  unfold shiftSelected at shifted
  split at shifted
  · obtain ⟨frame, _, rfl⟩ := Attempt.map_eq_ok_iff.1 shifted
    have fits := Track.check_eq_ok_iff.1 checked
    exact Track.check_eq_ok_iff.2 fits
  · cases shifted
    exact checked

theorem planned_of_planTrack
    (wellFormed : document.WellFormed)
    {offset : Int32}
    {address : PropertyAddress}
    {frames : FrameSet}
    {item : PropertyAddress × List Keyframe × List Keyframe}
    (planned : planTrack document.scene offset address frames = .ok item) :
    item.1 = address ∧ Planned document.scene item := by
  unfold planTrack at planned
  obtain ⟨track, known, planned⟩ := Attempt.bind_eq_ok_iff.1 planned
  split at planned
  · cases planned
  · obtain ⟨shifted, allShifted, planned⟩ := Attempt.bind_eq_ok_iff.1 planned
    simp only at planned
    split at planned
    · cases planned
    · next distinct =>
      cases planned
      obtain ⟨property, found, isTrack⟩ := Scene.track_eq_ok_iff.1 known
      have fits := wellFormed.fits found isTrack
      refine ⟨rfl, property, track, found, isTrack, rfl,
        Track.ascends_of_firstRepeat?
          (Track.sortKeyframes_sorted shifted) distinct, ?_⟩
      intro moved member
      have among := (Track.sortKeyframes_perm shifted).mem_iff.1 member
      obtain ⟨keyframe, listed, shift⟩ :=
        Attempt.exists_of_mem_mapM allShifted among
      exact check_shiftSelected shift (fits.checked keyframe listed)

theorem planned_of_plan
    (wellFormed : document.WellFormed)
    {command : MoveKeyframes}
    {plan : List (PropertyAddress × List Keyframe × List Keyframe)}
    (planned : command.plan document.scene = .ok plan) :
    (plan.map Prod.fst).Nodup ∧ ∀ item ∈ plan, Planned document.scene item := by
  have keys : plan.map Prod.fst = command.selection.toList.map Prod.fst := by
    have all := Attempt.mapM_eq_ok_iff.1 planned
    clear planned
    generalize command.selection.toList = selected at all
    induction all with
    | nil => rfl
    | cons first _ inductionHypothesis =>
        rw [List.map_cons, List.map_cons, inductionHypothesis,
          (planned_of_planTrack wellFormed first).1]
  refine ⟨?_, ?_⟩
  · rw [keys, List.nodup_iff_pairwise_ne, List.pairwise_map]
    refine command.selection.distinct_keys_toList.imp ?_
    intro a b differs same
    exact differs (same ▸ Std.ReflOrd.compare_self)
  · intro item member
    obtain ⟨selected, _, found⟩ := Attempt.exists_of_mem_mapM planned member
    exact (planned_of_planTrack wellFormed found).2

/-- Other tracks stay planned when the keyframes of one are stored. -/
theorem Planned.withProperty
    {address : PropertyAddress}
    (property : Property)
    (named : property.name = address.property)
    {item : PropertyAddress × List Keyframe × List Keyframe}
    (differs : item.1 ≠ address)
    (planned : Planned scene item) :
    Planned (scene.withProperty address property) item := by
  obtain ⟨other, track, found, rest⟩ := planned
  refine ⟨other, track, ?_, rest⟩
  rw [Scene.property_withProperty_of_ne property named differs]
  exact found

theorem storeAll_append
    {middle final : Scene}
    {done more : Nat}
    {first second : List (PropertyAddress × List Keyframe)}
    (stored : storeAll scene first = (middle, done, .ok ()))
    (onward : storeAll middle second = (final, more, .ok ())) :
    ∃ count, storeAll scene (first ++ second) = (final, count, .ok ()) := by
  induction first generalizing scene done with
  | nil =>
      cases stored
      exact ⟨more, onward⟩
  | cons item rest inductionHypothesis =>
      simp only [List.cons_append, storeAll] at stored ⊢
      cases outcome : store scene item.1 item.2 with
      | error fault => simp [outcome] at stored
      | ok next =>
          rw [outcome] at stored
          simp only [Prod.mk.injEq] at stored
          obtain ⟨count, appended⟩ :=
            inductionHypothesis (Prod.ext stored.1 (Prod.ext rfl stored.2.2))
          exact ⟨count + 1, by simp only [appended]⟩

/-- Planned keyframes can be stored, and the old ones put back. -/
theorem store_planned
    (wellFormed : document.WellFormed)
    {item : PropertyAddress × List Keyframe × List Keyframe}
    (planned : Planned document.scene item) :
    ∃ property : Property, property.name = item.1.property ∧
      store document.scene item.1 item.2.2 =
        .ok (document.scene.withProperty item.1 property) ∧
      store (document.scene.withProperty item.1 property) item.1 item.2.1 =
        .ok document.scene ∧
      { document with
        scene := document.scene.withProperty item.1 property }.WellFormed := by
  obtain ⟨address, old, moved⟩ := item
  obtain ⟨property, track, found, isTrack, isOld, ascends, checked⟩ := planned
  simp only at found isOld ascends checked ⊢
  have fits := wellFormed.fits found isTrack
  have known := Scene.track_eq_ok_iff.2 ⟨property, found, isTrack⟩
  have named := Scene.name_of_property found
  refine ⟨{ property with track := some { track with keyframes := moved } },
    named, ?_, ?_, ?_⟩
  · rw [store, known]
    simp only [Attempt.ok_bind, Track.replaceAll_of_ascends ascends checked]
    exact Scene.setTrack_eq_ok_iff.2 ⟨property, found, rfl⟩
  · have there := Scene.track_eq_ok_iff.2 ⟨_, Scene.property_retracked found
      (some { track with keyframes := moved }), rfl⟩
    have replaced : Track.replaceAll { track with keyframes := moved } old =
        .ok ({ track with keyframes := old }, moved) :=
      Track.replaceAll_of_ascends (isOld ▸ fits.ascends) (isOld ▸ fits.checked)
    rw [store, there]
    simp only [Attempt.ok_bind, replaced]
    have back :=
      Scene.setTrack_back found (some { track with keyframes := moved })
    rw [isTrack] at back
    rw [← isOld]
    exact back
  · refine wellFormed.retracked found ?_
    intro other isOther
    cases isOther
    exact fits.withKeyframes ascends checked

/-- Planned keyframes can all be stored, and the old ones put back last
first. -/
theorem storeAll_planned
    {plan : List (PropertyAddress × List Keyframe × List Keyframe)}
    (wellFormed : document.WellFormed)
    (distinct : (plan.map Prod.fst).Nodup)
    (planned : ∀ item ∈ plan, Planned document.scene item) :
    ∃ final,
      storeAll document.scene (plan.map fun item => (item.1, item.2.2)) =
        (final, plan.length, .ok ()) ∧
      (∃ done, storeAll final
          (plan.map fun item => (item.1, item.2.1)).reverse =
        (document.scene, done, .ok ())) ∧
      { document with scene := final }.WellFormed := by
  induction plan generalizing document with
  | nil => exact ⟨document.scene, rfl, ⟨0, rfl⟩, wellFormed⟩
  | cons item rest inductionHypothesis =>
      obtain ⟨fresh, distinctRest⟩ := List.nodup_cons.1 distinct
      obtain ⟨property, named, stored, restored, next⟩ :=
        store_planned wellFormed (planned item List.mem_cons_self)
      obtain ⟨final, forward, ⟨done, backward⟩, last⟩ :=
        inductionHypothesis next distinctRest (by
          intro other member
          refine (planned other (List.mem_cons_of_mem _ member)).withProperty
            property named ?_
          intro same
          exact fresh (List.mem_map.2 ⟨other, member, same⟩))
      refine ⟨final, ?_, ?_, last⟩
      · simp only [List.map_cons, storeAll, stored, forward, List.length_cons]
      · rw [List.map_cons, List.reverse_cons]
        have last : storeAll (document.scene.withProperty item.1 property)
            [(item.1, item.2.1)] = (document.scene, 1, .ok ()) := by
          simp only [storeAll, restored]
        exact storeAll_append backward last

/-- Moving keyframes is lawful. -/
theorem lawful
    (wellFormed : document.WellFormed)
    (command : MoveKeyframes) :
    Lawful apply revert document (command.apply document) := by
  rw [apply]
  split
  · exact .ofIdle command
  · next moves =>
    cases planned : command.plan document.scene with
    | error fault => exact .ofFailed command fault
    | ok plan =>
        obtain ⟨distinct, allPlanned⟩ := planned_of_plan wellFormed planned
        obtain ⟨final, forward, ⟨done, backward⟩, last⟩ :=
          storeAll_planned wellFormed distinct allPlanned
        simp only [forward, List.take_length]
        refine .ofScene last ⟨?_, ?_⟩
        · intro again isAfter
          simp only [revert, isAfter, backward]
        · intro again isBefore
          have plannedAgain : MoveKeyframes.plan { command with
              previous := plan.map fun item =>
                (item.1, item.2.1) } again.scene = .ok plan := by
            rw [isBefore]
            exact planned
          rw [apply]
          split
          · next idle => exact absurd idle moves
          · rw [plannedAgain]
            simp only [isBefore, forward, List.take_length]
            rfl

end MoveKeyframes
end MotionScene
