import MotionScene.Command.Animation
import MotionScene.Proofs.Command.Lawful
import MotionScene.Proofs.Track.Keyframes

/-!
# Animating properties is lawful

Each of these commands puts another track on one property, and remembers enough
to put the old one back.
-/

namespace MotionScene

namespace Scene

variable {scene changed : Scene} {address : PropertyAddress}
  {property : Property} {track : Track}

theorem track_eq_ok_iff :
    scene.track address = .ok track ↔
      ∃ property, scene.property address = .ok property ∧
        property.track = some track := by
  simp only [Scene.track, Attempt.bind_eq_ok_iff]
  refine exists_congr fun property => and_congr_right fun _ => ?_
  cases property.track <;> simp

theorem setTrack_eq_ok_iff {replacement : Option Track} :
    scene.setTrack address replacement = .ok changed ↔
      ∃ property, scene.property address = .ok property ∧
        changed =
          scene.withProperty address { property with track := replacement } :=
  modifyProperty_eq_ok_iff

/-- Storing a track on a property that is known changes that property and
nothing else. -/
theorem eq_of_setTrack
    (found : scene.property address = .ok property)
    {replacement : Option Track}
    (stored : scene.setTrack address replacement = .ok changed) :
    changed =
      scene.withProperty address { property with track := replacement } := by
  obtain ⟨again, foundAgain, same⟩ := setTrack_eq_ok_iff.1 stored
  rw [found] at foundAgain
  cases foundAgain
  exact same

theorem animatable_eq_ok_iff :
    scene.animatable address = .ok property ↔
      scene.property address = .ok property ∧
        property.kind.isAnimatable = true := by
  simp only [animatable, Attempt.bind_eq_ok_iff]
  constructor
  · rintro ⟨found, known, result⟩
    split at result
    · next isAnimatable =>
      cases result
      exact ⟨known, isAnimatable⟩
    · cases result
  · rintro ⟨known, isAnimatable⟩
    exact ⟨property, known, by rw [if_pos isAnimatable]; rfl⟩

/-- The scene with another track on a property has that property with that
track. -/
theorem property_retracked
    (found : scene.property address = .ok property)
    (replacement : Option Track) :
    (scene.withProperty address
      { property with track := replacement }).property address =
      .ok { property with track := replacement } := by
  have named := name_of_property found
  exact property_withProperty _ named found

/-- A third track takes the place of the second. -/
theorem setTrack_retracked
    (found : scene.property address = .ok property)
    (second third : Option Track) :
    (scene.withProperty address { property with track := second }).setTrack
        address third =
      .ok (scene.withProperty address { property with track := third }) := by
  have named := name_of_property found
  refine setTrack_eq_ok_iff.2 ⟨_, property_retracked found second, ?_⟩
  rw [withProperty_withProperty { property with track := second } _ named]

/-- Putting the old track back takes the change back. -/
theorem setTrack_back
    (found : scene.property address = .ok property)
    (replacement : Option Track) :
    (scene.withProperty address
      { property with track := replacement }).setTrack address
      property.track = .ok scene := by
  rw [setTrack_retracked found]
  exact congrArg Except.ok (withProperty_self found)

end Scene

namespace Track

/-- Another list of keyframes in order fits as well. -/
theorem Fits.withKeyframes
    {track : Track}
    {address : PropertyAddress}
    {kind : ValueKind}
    (fits : track.Fits address kind)
    {keyframes : List Keyframe}
    (ascends : Ascends keyframes)
    (checked : ∀ keyframe ∈ keyframes, track.check keyframe = .ok ()) :
    { track with keyframes }.Fits address kind :=
  ⟨fits.animatable, fits.kind_eq, fits.target_eq,
    ascending_iff.2 ascends, checked⟩

theorem Fits.ascends
    {track : Track}
    {address : PropertyAddress}
    {kind : ValueKind}
    (fits : track.Fits address kind) :
    Ascends track.keyframes :=
  ascending_iff.1 fits.ascending

theorem new_fits
    (address : PropertyAddress)
    {kind : ValueKind}
    (animatable : kind.isAnimatable = true)
    (interpolation : Interpolation) :
    (Track.new address kind interpolation).Fits address kind :=
  ⟨animatable, rfl, rfl, rfl, fun _ member => absurd member List.not_mem_nil⟩

/-- Setting a keyframe gives a track that fits, or the keyframe does not fit the
track. -/
theorem check_of_upsert
    {track changed : Track}
    {keyframe : Keyframe}
    {replaced : Option Keyframe}
    (done : track.upsert keyframe = .ok (changed, replaced)) :
    track.check keyframe = .ok () := by
  rw [upsert] at done
  obtain ⟨_, checked, _⟩ := Attempt.bind_eq_ok_iff.1 done
  exact checked

/-- A keyframe that was set is found at its frame, and what it replaced is
known. -/
theorem upsert_cases
    {track changed : Track}
    {address : PropertyAddress}
    {kind : ValueKind}
    (fits : track.Fits address kind)
    {keyframe : Keyframe}
    {replaced : Option Keyframe}
    (done : track.upsert keyframe = .ok (changed, replaced)) :
    changed.Fits address kind ∧
      (∀ old, replaced = some old →
        changed.upsert old = .ok (track, some keyframe)) ∧
      (replaced = none →
        changed.remove keyframe.frame = (track, some keyframe)) := by
  have checked := check_of_upsert done
  have ascends := fits.ascends
  rcases split_at ascends keyframe.frame with
    ⟨before, old, after, shape, same⟩ | ⟨before, after, shape, earlier, later⟩
  · have listed : old ∈ track.keyframes := by simp [shape]
    have ascendsAfter : Ascends (before ++ keyframe :: after) :=
      (shape ▸ ascends).replace same.symm
    rw [upsert_hit ascends shape checked same.symm] at done
    cases done
    refine ⟨fits.withKeyframes ascendsAfter ?_, ?_, by simp⟩
    · intro other member
      rw [List.mem_append, List.mem_cons] at member
      have oldChecked := fits.checked other
      rw [shape, List.mem_append, List.mem_cons] at oldChecked
      rcases member with member | rfl | member
      · exact oldChecked (Or.inl member)
      · exact checked
      · exact oldChecked (Or.inr (Or.inr member))
    · intro other isOld
      cases isOld
      have restored :
          upsert { track with keyframes := before ++ keyframe :: after } old =
          .ok ({ track with keyframes := before ++ old :: after },
            some keyframe) :=
        upsert_hit ascendsAfter rfl (fits.checked old listed) same
      rw [← shape] at restored
      exact restored
  · have ascendsAfter : Ascends (before ++ keyframe :: after) :=
      (shape ▸ ascends).insert earlier later
    rw [upsert_miss ascends shape checked earlier later] at done
    cases done
    refine ⟨fits.withKeyframes ascendsAfter ?_, by simp, fun _ => ?_⟩
    · intro other member
      rw [List.mem_append, List.mem_cons] at member
      have oldChecked := fits.checked other
      rw [shape, List.mem_append] at oldChecked
      rcases member with member | rfl | member
      · exact oldChecked (Or.inl member)
      · exact checked
      · exact oldChecked (Or.inr member)
    · have removed : remove
            { track with keyframes := before ++ keyframe :: after }
            keyframe.frame =
          ({ track with keyframes := before ++ after }, some keyframe) :=
        remove_hit ascendsAfter rfl
      rw [← shape] at removed
      exact removed

/-- A keyframe that is there can be removed and set again. -/
theorem remove_cases
    {track : Track}
    {address : PropertyAddress}
    {kind : ValueKind}
    (fits : track.Fits address kind)
    {frame : Int32}
    (keyed : (track.keyframe? frame).isNone = false) :
    ∃ changed removed, track.remove frame = (changed, some removed) ∧
      changed.Fits address kind ∧
      changed.upsert removed = .ok (track, none) := by
  have ascends := fits.ascends
  rcases split_at ascends frame with
    ⟨before, old, after, shape, rfl⟩ | ⟨before, after, shape, earlier, later⟩
  · have listed : old ∈ track.keyframes := by simp [shape]
    have around := (shape ▸ ascends).around
    refine ⟨_, old, remove_hit ascends shape,
      fits.withKeyframes (shape ▸ ascends).remove ?_, ?_⟩
    · intro other member
      apply fits.checked
      rw [shape, List.mem_append, List.mem_cons]
      exact (List.mem_append.1 member).imp_right Or.inr
    · have restored : upsert { track with keyframes := before ++ after } old =
          .ok ({ track with keyframes := before ++ old :: after }, none) :=
        upsert_miss (shape ▸ ascends).remove rfl
          (fits.checked old listed) around.1 around.2
      rw [← shape] at restored
      exact restored
  · rw [keyframe?, (position?_miss ascends shape earlier later).1] at keyed
    cases keyed

end Track

namespace Document

/-- A track that fits may be put on a property. -/
theorem WellFormed.retracked
    {document : Document}
    (wellFormed : document.WellFormed)
    {address : PropertyAddress}
    {property : Property}
    (found : document.scene.property address = .ok property)
    {replacement : Option Track}
    (fits : ∀ track, replacement = some track →
      track.Fits address property.kind) :
    { document with
      scene := document.scene.withProperty address
        { property with track := replacement } }.WellFormed := by
  have named := Scene.name_of_property found
  obtain ⟨sound, permits⟩ := wellFormed.sound.of_property found
  refine wellFormed.withScene
    (wellFormed.linked.congr Scene.sameLinks_withProperty)
    (wellFormed.sound.withProperty _ named ⟨sound.value_kind, ?_⟩ permits) ?_
  · intro track isTrack
    simp only [named]
    exact fits track isTrack
  · intro id known
    rwa [Scene.contains_withProperty] at known

/-- The track of a property fits it. -/
theorem WellFormed.fits
    {document : Document}
    (wellFormed : document.WellFormed)
    {address : PropertyAddress}
    {property : Property}
    (found : document.scene.property address = .ok property)
    {track : Track}
    (isTrack : property.track = some track) :
    track.Fits address property.kind := by
  have fits := (wellFormed.sound.of_property found).1.track_fits track isTrack
  rwa [Scene.name_of_property found] at fits

end Document

/-- A command that computes the scene it leads to is lawful when it can go back
and go there again. -/
theorem Lawful.ofRun
    {κ : Type}
    {apply : κ → Document → Step κ Document Outcome}
    {revert : κ → Document → Step κ Document Unit}
    (run : κ → Document → Except Fault (κ × Scene × Outcome))
    (applies : ∀ command document,
      apply command document = .ofScene command document (run command document))
    {document : Document}
    {command : κ}
    (result : ∀ remembered scene outcome,
      run command document = .ok (remembered, scene, outcome) →
        (outcome = .noop ∧ scene = document.scene) ∨
          (outcome = .changed ∧ { document with scene }.WellFormed ∧
            (∀ again, again.scene = document.scene →
              run remembered again = .ok (remembered, scene, .changed)) ∧
            ∀ again, again.scene = scene →
              revert remembered again =
                ⟨remembered, { again with scene := document.scene }, .ok ()⟩)) :
    Lawful apply revert document (apply command document) := by
  rw [applies]
  cases done : run command document with
  | error fault => exact .ofFailed command fault
  | ok triple =>
      obtain ⟨remembered, scene, outcome⟩ := triple
      rcases result remembered scene outcome done with
        ⟨rfl, rfl⟩ | ⟨rfl, wellFormed, again, back⟩
      · exact .ofIdle remembered
      · refine .ofScene wellFormed ⟨back, ?_⟩
        intro later same
        rw [applies, again later same]
        rfl

namespace CreateTrack

/-- The track that is made for a property fits it. -/
theorem build_fits
    {command : CreateTrack}
    (fresh : command.created = none)
    {property : Property}
    (animatable : property.kind.isAnimatable = true)
    {frame : Int32}
    {track : Track}
    (built : command.build property frame = .ok track) :
    track.Fits command.address property.kind := by
  have empty := Track.new_fits command.address animatable command.interpolation
  rw [build, fresh] at built
  simp only at built
  split at built
  · obtain ⟨⟨changed, replaced⟩, done, rfl⟩ := Attempt.map_eq_ok_iff.1 built
    exact (Track.upsert_cases empty done).1
  · cases built
    exact empty

theorem lawful
    {document : Document}
    (wellFormed : document.WellFormed)
    {command : CreateTrack}
    (fresh : command.created = none) :
    Lawful apply revert document (command.apply document) := by
  refine .ofRun run (fun _ _ => rfl) ?_
  intro remembered scene outcome done
  rw [run] at done
  obtain ⟨property, known, done⟩ := Attempt.bind_eq_ok_iff.1 done
  obtain ⟨found, animatable⟩ := Scene.animatable_eq_ok_iff.1 known
  split at done
  · cases done
    exact Or.inl ⟨rfl, rfl⟩
  · next untracked =>
    obtain ⟨track, built, done⟩ := Attempt.bind_eq_ok_iff.1 done
    obtain ⟨changed, stored, done⟩ := Attempt.bind_eq_ok_iff.1 done
    cases done
    have fits := build_fits fresh animatable built
    have isNone : property.track = none := by simpa using untracked
    obtain rfl := Scene.eq_of_setTrack found stored
    refine Or.inr ⟨rfl, wellFormed.retracked found ?_, ?_, ?_⟩
    · intro other isOther
      cases isOther
      exact fits
    · intro later same
      rw [run, same, known]
      simp only [Attempt.ok_bind]
      rw [if_neg untracked]
      simp only [build, Attempt.ok_bind, stored, Attempt.pure_eq_ok]
    · intro later same
      have back := Scene.setTrack_back found (some track)
      rw [isNone] at back
      rw [revert, same, back]
      rfl

end CreateTrack

namespace RemoveTrack

theorem lawful
    {document : Document}
    (wellFormed : document.WellFormed)
    (command : RemoveTrack) :
    Lawful apply revert document (command.apply document) := by
  refine .ofRun
    (fun (command : RemoveTrack) document => command.run document.scene)
    (fun _ _ => rfl) ?_
  intro remembered scene outcome done
  rw [run] at done
  obtain ⟨track, known, done⟩ := Attempt.bind_eq_ok_iff.1 done
  obtain ⟨changed, stored, done⟩ := Attempt.bind_eq_ok_iff.1 done
  cases done
  obtain ⟨property, found, isTrack⟩ := Scene.track_eq_ok_iff.1 known
  obtain rfl := Scene.eq_of_setTrack found stored
  refine Or.inr ⟨rfl, wellFormed.retracked found ?_, ?_, ?_⟩
  · intro other isOther
    cases isOther
  · intro later same
    rw [run, same, known]
    simp only [Attempt.ok_bind, stored, Attempt.pure_eq_ok]
  · intro later same
    have back := Scene.setTrack_back found none
    rw [isTrack] at back
    rw [revert, same, back]
    rfl

end RemoveTrack

namespace SetInterpolation

theorem lawful
    {document : Document}
    (wellFormed : document.WellFormed)
    (command : SetInterpolation) :
    Lawful apply revert document (command.apply document) := by
  refine .ofRun
    (fun (command : SetInterpolation) document => command.run document.scene)
    (fun _ _ => rfl) ?_
  intro remembered scene outcome done
  rw [run] at done
  obtain ⟨track, known, done⟩ := Attempt.bind_eq_ok_iff.1 done
  split at done
  · cases done
    exact Or.inl ⟨rfl, rfl⟩
  · next differs =>
    obtain ⟨changed, stored, done⟩ := Attempt.bind_eq_ok_iff.1 done
    cases done
    have storedAgain := stored
    rw [store, known, Attempt.ok_bind] at stored
    obtain ⟨property, found, isTrack⟩ := Scene.track_eq_ok_iff.1 known
    obtain rfl := Scene.eq_of_setTrack found stored
    have fits := wellFormed.fits found isTrack
    refine Or.inr ⟨rfl, wellFormed.retracked found ?_, ?_, ?_⟩
    · intro other isOther
      cases isOther
      exact ⟨fits.animatable, fits.kind_eq, fits.target_eq, fits.ascending,
        fits.checked⟩
    · intro later same
      rw [run, same, known]
      simp only [Attempt.ok_bind]
      rw [if_neg differs, storedAgain]
      rfl
    · intro later same
      have there := Scene.track_eq_ok_iff.2 ⟨_, Scene.property_retracked found
        (some { track with interpolation := command.interpolation }), rfl⟩
      have back := Scene.setTrack_back found
        (some { track with interpolation := command.interpolation })
      rw [isTrack] at back
      rw [revert, same]
      simp only [store, there, Attempt.ok_bind, back]
      rfl

end SetInterpolation

namespace RemoveKeyframe

theorem lawful
    {document : Document}
    (wellFormed : document.WellFormed)
    (command : RemoveKeyframe) :
    Lawful apply revert document (command.apply document) := by
  refine .ofRun
    (fun (command : RemoveKeyframe) document => command.run document.scene)
    (fun _ _ => rfl) ?_
  intro remembered scene outcome done
  rw [run] at done
  obtain ⟨track, known, done⟩ := Attempt.bind_eq_ok_iff.1 done
  cases keyed : (track.keyframe? command.frame).isNone with
  | true =>
    rw [if_pos keyed] at done
    cases done
  | false =>
    obtain ⟨property, found, isTrack⟩ := Scene.track_eq_ok_iff.1 known
    obtain ⟨changed, removed, isRemoved, fits, restores⟩ :=
      Track.remove_cases (wellFormed.fits found isTrack) keyed
    simp only [keyed, Bool.false_eq_true, if_false, isRemoved,
      Attempt.pure_eq_ok] at done
    obtain ⟨stripped, stored, done⟩ := Attempt.bind_eq_ok_iff.1 done
    cases done
    obtain rfl := Scene.eq_of_setTrack found stored
    refine Or.inr ⟨rfl, wellFormed.retracked found ?_, ?_, ?_⟩
    · intro other isOther
      cases isOther
      exact fits
    · intro later same
      rw [run, same, known]
      simp only [Attempt.ok_bind, keyed, Bool.false_eq_true, if_false,
        Attempt.pure_eq_ok, isRemoved, stored]
    · intro later same
      have there := Scene.track_eq_ok_iff.2
        ⟨_, Scene.property_retracked found (some changed), rfl⟩
      have back := Scene.setTrack_back found (some changed)
      rw [isTrack] at back
      rw [revert, RemoveKeyframe.back, same]
      simp only [there, Attempt.ok_bind, restores, back]
      rfl

end RemoveKeyframe

namespace CreateKeyframe

theorem lawful
    {document : Document}
    (wellFormed : document.WellFormed)
    (command : CreateKeyframe) :
    Lawful apply revert document (command.apply document) := by
  refine .ofRun
    (fun (command : CreateKeyframe) document => command.run document.scene)
    (fun _ _ => rfl) ?_
  intro remembered scene outcome done
  rw [run] at done
  obtain ⟨property, known, done⟩ := Attempt.bind_eq_ok_iff.1 done
  obtain ⟨found, animatable⟩ := Scene.animatable_eq_ok_iff.1 known
  obtain ⟨value, coerced, done⟩ := Attempt.bind_eq_ok_iff.1 done
  simp only at done
  split at done
  · cases done
    exact Or.inl ⟨rfl, rfl⟩
  · next unset =>
    obtain ⟨⟨changed, replaced⟩, upserted, done⟩ :=
      Attempt.bind_eq_ok_iff.1 done
    obtain ⟨stored, isStored, done⟩ := Attempt.bind_eq_ok_iff.1 done
    cases done
    have fitsBefore :
        (property.track.getD (.new command.address property.kind .linear)).Fits
          command.address property.kind := by
      cases isTrack : property.track with
      | none => exact Track.new_fits command.address animatable .linear
      | some track => exact wellFormed.fits found isTrack
    obtain ⟨fits, putBack, takenOut⟩ := Track.upsert_cases fitsBefore upserted
    obtain rfl := Scene.eq_of_setTrack found isStored
    refine Or.inr ⟨rfl, wellFormed.retracked found ?_, ?_, ?_⟩
    · intro other isOther
      cases isOther
      exact fits
    · intro later same
      rw [run, same, known]
      simp only [Attempt.ok_bind, coerced]
      rw [if_neg unset]
      simp only [Attempt.pure_eq_ok, Attempt.ok_bind, upserted, isStored]
    · intro later same
      have there := Scene.track_eq_ok_iff.2
        ⟨_, Scene.property_retracked found (some changed), rfl⟩
      have back := Scene.setTrack_back found (some changed)
      rw [revert, CreateKeyframe.back, same]
      cases isTrack : property.track with
      | none =>
          rw [isTrack] at back
          simp only [Option.isNone_none, if_true, back]
          rfl
      | some track =>
          rw [isTrack, Option.getD_some] at putBack takenOut
          rw [isTrack] at back
          simp only [Option.isNone_some, Bool.false_eq_true, if_false, there,
            Attempt.ok_bind]
          cases replaced with
          | none =>
              have removed := takenOut rfl
              simp only at removed ⊢
              rw [removed]
              simp only [back]
              rfl
          | some old =>
              simp only [putBack old rfl, Attempt.ok_bind, back]
              rfl

end CreateKeyframe
end MotionScene
