import MotionScene.Proofs.Command.KeyframeShift
import MotionScene.Proofs.Document.Opening

/-!
# Selected keyframes move at once

All selected keyframes of a track move by the same offset, whichever frames they
pass or leave on the way.  What can stop them is a frame without a keyframe, a
frame that no longer fits in 32 bits, and a keyframe that stays where another
one arrives.  Either all tracks are changed or none is.
-/

namespace MotionScene

/-- A keyframe, moved by an offset if its frame is one of some frames. -/
def Keyframe.shifted
    (frames : FrameSet)
    (offset : Int32)
    (keyframe : Keyframe) :
    Keyframe :=
  if keyframe.frame ∈ frames then
    { keyframe with frame := keyframe.frame + offset }
  else keyframe

/-- A frame that moves by an offset stays within 32 bits. -/
def MoveKeyframes.InRange (frame offset : Int32) : Prop :=
  -2147483648 ≤ frame.toInt + offset.toInt ∧
    frame.toInt + offset.toInt ≤ 2147483647

namespace Track

open MoveKeyframes (InRange)

variable {track : Track} {keyframes : List Keyframe} {frames : FrameSet}
  {offset frame : Int32}

/-- The frames have keyframes, which stay within 32 bits when they move and
arrive where no keyframe stays. -/
def Movable (track : Track) (frames : FrameSet) (offset : Int32) : Prop :=
  ∀ frame ∈ frames,
    frame ∈ track.frames ∧ InRange frame offset ∧
      ∀ other ∈ track.frames, other ∉ frames →
        other.toInt ≠ frame.toInt + offset.toInt

theorem toInt_shifted
    {keyframe : Keyframe}
    (selected : keyframe.frame ∈ frames)
    (bounds : InRange keyframe.frame offset) :
    (keyframe.shifted frames offset).frame.toInt =
      keyframe.frame.toInt + offset.toInt := by
  rw [Keyframe.shifted, if_pos selected, Int32.toInt_add]
  obtain ⟨lower, upper⟩ := bounds
  exact Int.bmod_eq_of_le (by omega) (by omega)

/-- Moved keyframes are at different frames if and only if none arrives where
one stays. -/
theorem nodup_shifted_iff
    (ascends : Ascends keyframes)
    (bounds : ∀ keyframe ∈ keyframes, keyframe.frame ∈ frames →
      InRange keyframe.frame offset) :
    ((keyframes.map (Keyframe.shifted frames offset)).map
      Keyframe.frame).Nodup ↔
      ∀ moving ∈ keyframes, moving.frame ∈ frames →
        ∀ staying ∈ keyframes, staying.frame ∉ frames →
        staying.frame.toInt ≠ moving.frame.toInt + offset.toInt := by
  have sameFrame := List.inj_on_of_nodup_map ascends.nodup
  have stays : ∀ keyframe : Keyframe, keyframe.frame ∉ frames →
      keyframe.shifted frames offset = keyframe :=
    fun _ unselected => if_neg unselected
  have moves : ∀ keyframe : Keyframe, keyframe.frame ∈ frames →
      (keyframe.shifted frames offset).frame = keyframe.frame + offset := by
    intro keyframe selected
    rw [Keyframe.shifted, if_pos selected]
  rw [List.map_map,
    List.nodup_map_iff_inj_on (List.Nodup.of_map _ ascends.nodup)]
  constructor
  · intro injective moving isMoving selected staying isStaying
      unselected arrives
    have same : (staying.shifted frames offset).frame =
        (moving.shifted frames offset).frame := by
      rw [← Int32.toInt_inj,
        toInt_shifted selected (bounds moving isMoving selected),
        stays staying unselected, arrives]
    exact unselected
      (injective staying isStaying moving isMoving same ▸ selected)
  · intro free first isFirst second isSecond same
    rw [Function.comp_apply, Function.comp_apply] at same
    by_cases firstMoves : first.frame ∈ frames <;>
      by_cases secondMoves : second.frame ∈ frames
    · rw [moves first firstMoves, moves second secondMoves, Int32.add_left_inj]
        at same
      exact sameFrame isFirst isSecond same
    · have arrives := congrArg Int32.toInt same
      rw [toInt_shifted firstMoves (bounds first isFirst firstMoves),
        stays second secondMoves] at arrives
      exact absurd arrives.symm
        (free first isFirst firstMoves second isSecond secondMoves)
    · have arrives := congrArg Int32.toInt same
      rw [toInt_shifted secondMoves (bounds second isSecond secondMoves),
        stays first firstMoves] at arrives
      exact absurd arrives
        (free second isSecond secondMoves first isFirst firstMoves)
    · rw [stays first firstMoves, stays second secondMoves] at same
      exact sameFrame isFirst isSecond same

/-- The same condition, read from the keyframes. -/
theorem movable_iff :
    track.Movable frames offset ↔
      (∀ frame ∈ frames, frame ∈ track.frames) ∧
      (∀ keyframe ∈ track.keyframes, keyframe.frame ∈ frames →
        InRange keyframe.frame offset) ∧
      ∀ moving ∈ track.keyframes, moving.frame ∈ frames →
        ∀ staying ∈ track.keyframes, staying.frame ∉ frames →
          staying.frame.toInt ≠ moving.frame.toInt + offset.toInt := by
  constructor
  · intro movable
    refine ⟨fun frame selected => (movable frame selected).1,
      fun keyframe _ selected => (movable _ selected).2.1, ?_⟩
    intro moving _ selected staying isStaying
    exact (movable _ selected).2.2 staying.frame (List.mem_map_of_mem isStaying)
  · rintro ⟨keyed, bounds, free⟩ frame selected
    obtain ⟨moving, isMoving, rfl⟩ := List.mem_map.1 (keyed frame selected)
    exact ⟨keyed _ selected, bounds moving isMoving selected,
      List.forall_mem_map.2 (free moving isMoving selected)⟩

/-- Keyframes that can move are in order afterwards. -/
theorem Movable.ascends
    (movable : track.Movable frames offset)
    (ascends : Ascends track.keyframes) :
    Ascends
      (sortKeyframes
        (track.keyframes.map (Keyframe.shifted frames offset))) := by
  obtain ⟨_, bounds, free⟩ := movable_iff.1 movable
  exact ascends_of_firstRepeat? (sortKeyframes_sorted _)
    (firstRepeat?_sortKeyframes_eq_none_iff.2
      ((nodup_shifted_iff ascends bounds).2 free))

/-- Whether a keyframe fits a track has nothing to do with its frame. -/
theorem check_shifted
    {keyframe : Keyframe}
    (checked : track.check keyframe = .ok ()) :
    track.check (keyframe.shifted frames offset) = .ok () := by
  unfold Keyframe.shifted
  split
  · have fits := check_eq_ok_iff.1 checked
    exact check_eq_ok_iff.2 fits
  · exact checked

end Track

/-- The property with other keyframes on its track. -/
def Property.rekeyed (property : Property) (keyframes : List Keyframe) :
    Property :=
  { property with
    track := property.track.map fun track => { track with keyframes } }

namespace Owner

/-- Properties with other keyframes on the tracks of some names; a name leads to
the first property that has it. -/
def rekeyFirst (keyed : String → Option (List Keyframe)) :
    List Property → List Property
  | [] => []
  | property :: rest =>
    (keyed property.name).elim property property.rekeyed ::
      rekeyFirst
        (fun name => if name = property.name then none else keyed name) rest

theorem rekeyFirst_none
    {keyed : String → Option (List Keyframe)}
    (unkeyed : ∀ name, keyed name = none)
    (properties : List Property) : rekeyFirst keyed properties =
      properties := by
  induction properties generalizing keyed with
  | nil => rfl
  | cons head rest inductionHypothesis =>
      rw [rekeyFirst, unkeyed,
        inductionHypothesis fun name => by simp [unkeyed]]
      rfl

/-- What a name leads to. -/
theorem find?_rekeyFirst
    {keyed : String → Option (List Keyframe)}
    {name : String}
    (properties : List Property) :
    (rekeyFirst keyed properties).find?
        (fun property => property.name == name) =
      (properties.find? fun property => property.name == name).map
        fun property =>
          (keyed name).elim property property.rekeyed := by
  induction properties generalizing keyed with
  | nil => rfl
  | cons head rest inductionHypothesis =>
      have named :
          ((keyed head.name).elim head head.rekeyed).name = head.name := by
        cases keyed head.name <;> rfl
      by_cases hit : head.name = name
      · subst hit
        rw [rekeyFirst, List.find?_cons_of_pos (by simp [named]),
          List.find?_cons_of_pos (by simp), Option.map_some]
      · rw [rekeyFirst, List.find?_cons_of_neg (by simp [named, hit]),
          List.find?_cons_of_neg (by simp [hit]), inductionHypothesis,
          if_neg (Ne.symm hit)]

/-- One name before others. -/
theorem rekeyFirst_changeFirst
    {keyed : String → Option (List Keyframe)}
    {name : String}
    (unkeyed : keyed name = none)
    (keyframes : List Keyframe)
    (properties : List Property) :
    rekeyFirst keyed
        (changeFirst name (fun property => property.rekeyed keyframes)
          properties) =
      rekeyFirst
        (fun other => if other = name then some keyframes else keyed other)
        properties := by
  induction properties generalizing keyed with
  | nil => rfl
  | cons head rest inductionHypothesis =>
      by_cases hit : head.name = name
      · subst hit
        have others : (fun other => if other = head.name then none else
            if other = head.name then some keyframes else keyed other) =
              fun other => if other = head.name then none else keyed other := by
          funext other
          split <;> rfl
        simp only [changeFirst, if_pos, rekeyFirst, others,
          Property.rekeyed, unkeyed]
        rfl
      · have others : (fun other => if other = head.name then none else
            if other = name then some keyframes else keyed other) =
              fun other => if other = name then some keyframes else
                if other = head.name then none else keyed other := by
          funext other
          split
          · next same => rw [if_neg (same ▸ hit)]
          · rfl
        simp only [changeFirst, if_neg hit, rekeyFirst, others]
        rw [inductionHypothesis (by simp [unkeyed])]

end Owner

/-- The keyframes of every track ascend and fit the track. -/
def Scene.KeyframesOrdered (scene : Scene) : Prop :=
  ∀ id owner, scene.owner? id = some owner → ∀ property ∈ owner.properties,
    ∀ track, property.track = some track →
      Track.Ascends track.keyframes ∧ ∀ keyframe ∈ track.keyframes,
        track.check keyframe = .ok ()

theorem Scene.KeyframesOrdered.of_track
    {scene : Scene}
    (ordered : scene.KeyframesOrdered)
    {address : PropertyAddress}
    {track : Track}
    (known : scene.track address = .ok track) :
    Track.Ascends track.keyframes ∧ ∀ keyframe ∈ track.keyframes,
      track.check keyframe = .ok () := by
  obtain ⟨property, found, isTrack⟩ := track_eq_ok_iff.1 known
  obtain ⟨owner, isOwner, named⟩ := property_eq_ok_iff.1 found
  exact ordered address.owner owner isOwner property
    (List.mem_of_find?_eq_some named) track isTrack

theorem Document.WellFormed.keyframesOrdered
    {document : Document}
    (wellFormed : document.WellFormed) :
    document.scene.KeyframesOrdered := by
  intro id owner found property member track isTrack
  have fits :=
    ((wellFormed.sound.owner found).properties property member).track_fits
      track isTrack
  exact ⟨fits.ascends, fits.checked⟩

namespace Scene

/-- Another scene differs in the keyframes of some tracks. -/
structure Rekeyed
    (scene : Scene)
    (keyed : PropertyAddress → Option (List Keyframe))
    (final : Scene) : Prop where
  root : final.root = scene.root
  styles : final.styles = scene.styles
  tools : final.tools = scene.tools
  selection : final.selection = scene.selection
  owners : ∀ id, final.owner? id = (scene.owner? id).map fun owner =>
    { owner with
      properties :=
        Owner.rekeyFirst (fun name => keyed ⟨id, name⟩) owner.properties }

namespace Rekeyed

variable {scene final : Scene}
  {keyed : PropertyAddress → Option (List Keyframe)}

theorem refl (unkeyed : ∀ address, keyed address = none) :
    scene.Rekeyed keyed scene where
  root := rfl
  styles := rfl
  tools := rfl
  selection := rfl
  owners id := by
    simp [Owner.rekeyFirst_none fun name => unkeyed ⟨id, name⟩]

/-- One track before others. -/
theorem cons
    {address : PropertyAddress}
    {property : Property}
    {keyframes : List Keyframe}
    (found : scene.property address = .ok property)
    (isKeyed : keyed address = some keyframes)
    (rest : (scene.withProperty address (property.rekeyed keyframes)).Rekeyed
      (fun other => if other = address then none else keyed other) final) :
    scene.Rekeyed keyed final where
  root := rest.root
  styles := rest.styles
  tools := rest.tools
  selection := rest.selection
  owners id := by
    obtain ⟨owner, isOwner, named⟩ := property_eq_ok_iff.1 found
    rw [rest.owners id, owner?_withProperty]
    split
    · next here =>
      subst here
      have names : (fun other =>
          if other = address.property then some keyframes else
          if (⟨address.owner, other⟩ : PropertyAddress) = address then none
          else
            keyed ⟨address.owner, other⟩) = fun other =>
              keyed ⟨address.owner, other⟩ := by
        funext other
        split
        · next same => rw [same, ← isKeyed]
        · next differs =>
            rw [if_neg fun same =>
              differs (congrArg PropertyAddress.property same)]
      rw [isOwner, Option.map_some, Option.map_some, Option.map_some,
        Owner.modifyProperty, ← Owner.changeFirst_eq
          (fun property => property.rekeyed keyframes) named]
      simp only
      rw [Owner.rekeyFirst_changeFirst (if_pos rfl), names]
    · next elsewhere =>
      have names : ∀ name, (⟨id, name⟩ : PropertyAddress) ≠ address :=
        fun name same => elsewhere (congrArg PropertyAddress.owner same).symm
      simp only [names, if_false]

/-- A track has the keyframes that it was given. -/
theorem track_eq
    (rekeyed : scene.Rekeyed keyed final)
    {address : PropertyAddress}
    {track : Track}
    {keyframes : List Keyframe}
    (known : scene.track address = .ok track)
    (isKeyed : keyed address = some keyframes) :
    final.track address = .ok { track with keyframes } := by
  obtain ⟨property, found, isTrack⟩ := track_eq_ok_iff.1 known
  obtain ⟨owner, isOwner, named⟩ := property_eq_ok_iff.1 found
  have foundAfter :
      final.property address = .ok (property.rekeyed keyframes) := by
    refine property_eq_ok_iff.2
      ⟨_, by rw [rekeyed.owners, isOwner, Option.map_some], ?_⟩
    rw [Owner.property?] at named ⊢
    rw [Owner.find?_rekeyFirst, named, Option.map_some, isKeyed]
    rfl
  refine track_eq_ok_iff.2 ⟨_, foundAfter, ?_⟩
  rw [Property.rekeyed, isTrack]
  rfl

end Rekeyed
end Scene

namespace MoveKeyframes

variable {scene : Scene} {document : Document} {command : MoveKeyframes}

theorem shift_eq_ok_iff {frame offset moved : Int32} :
    shift frame offset = .ok moved ↔
      InRange frame offset ∧ moved = frame + offset := by
  simp only [shift, InRange, Int32.ofInt_add, Int32.ofInt_toInt]
  split
  · next bounds => simp [bounds, eq_comm]
  · next outside => simp [outside]

theorem shiftSelected_eq_ok_iff
    {frames : FrameSet}
    {offset : Int32}
    {keyframe moved : Keyframe} :
    shiftSelected frames offset keyframe = .ok moved ↔
      (keyframe.frame ∈ frames → InRange keyframe.frame offset) ∧
        moved = keyframe.shifted frames offset := by
  unfold shiftSelected Keyframe.shifted
  split
  · next selected =>
    simp only [Attempt.map_eq_ok_iff, shift_eq_ok_iff, selected, true_implies]
    constructor
    · rintro ⟨_, ⟨bounds, rfl⟩, rfl⟩
      exact ⟨bounds, rfl⟩
    · rintro ⟨bounds, rfl⟩
      exact ⟨_, ⟨bounds, rfl⟩, rfl⟩
  · next unselected => simp [unselected, eq_comm]

theorem mapM_shiftSelected_eq_ok_iff
    {frames : FrameSet}
    {offset : Int32}
    {keyframes moved : List Keyframe} :
    keyframes.mapM (shiftSelected frames offset) = .ok moved ↔
      (∀ keyframe ∈ keyframes, keyframe.frame ∈ frames →
        InRange keyframe.frame offset) ∧
        moved = keyframes.map (Keyframe.shifted frames offset) := by
  rw [Attempt.mapM_eq_ok_iff]
  simp only [shiftSelected_eq_ok_iff]
  induction keyframes generalizing moved with
  | nil => cases moved <;> simp
  | cons first rest inductionHypothesis =>
      simp only [List.forall₂_cons_left_iff, List.forall_mem_cons,
        List.map_cons]
      constructor
      · rintro ⟨_, others, ⟨bounds, rfl⟩, remaining, rfl⟩
        obtain ⟨boundsRest, rfl⟩ := inductionHypothesis.1 remaining
        exact ⟨⟨bounds, boundsRest⟩, rfl⟩
      · rintro ⟨⟨bounds, boundsRest⟩, rfl⟩
        exact ⟨_, _, ⟨bounds, rfl⟩,
          inductionHypothesis.2 ⟨boundsRest, rfl⟩, rfl⟩

/-- A track can be planned if and only if its selected keyframes can move. -/
theorem planTrack_eq_ok_iff
    (ordered : scene.KeyframesOrdered)
    {offset : Int32}
    {address : PropertyAddress}
    {frames : FrameSet}
    {item : PropertyAddress × List Keyframe × List Keyframe} :
    planTrack scene offset address frames = .ok item ↔
      ∃ track, scene.track address = .ok track ∧ track.Movable frames offset ∧
        item = (address, track.keyframes,
          Track.sortKeyframes
            (track.keyframes.map (Keyframe.shifted frames offset))) := by
  rw [planTrack, Attempt.bind_eq_ok_iff]
  refine exists_congr fun track => and_congr_right fun known => ?_
  have ascends := (ordered.of_track known).1
  rw [Track.movable_iff]
  have keyed :
      (frames.toList.find? fun frame => (track.keyframe? frame).isNone) = none ↔
      ∀ frame ∈ frames, frame ∈ track.frames := by
    simp [List.find?_eq_none,
      Std.ExtTreeSet.mem_toList, ← Track.keyframe?_isSome_iff ascends,
      Option.isSome_iff_ne_none]
  split
  · next frame missing => simp [← keyed, missing]
  · next found =>
    simp only [← keyed, found, true_and, Attempt.bind_eq_ok_iff,
      mapM_shiftSelected_eq_ok_iff, and_assoc, exists_and_left, exists_eq_left]
    refine and_congr_right fun bounds => ?_
    rw [← Track.nodup_shifted_iff ascends
      bounds, ← Track.firstRepeat?_sortKeyframes_eq_none_iff]
    split
    · next frame repeated => simp [repeated]
    · next distinct => simp [distinct, eq_comm]

/-- Planned keyframes can be stored. -/
theorem store_rekeyed
    {item : PropertyAddress × List Keyframe × List Keyframe}
    (planned : Planned scene item) :
    ∃ property, scene.property item.1 = .ok property ∧
      store scene item.1 item.2.2 =
        .ok (scene.withProperty item.1 (property.rekeyed item.2.2)) := by
  obtain ⟨property, track, found, isTrack, _, ascends, checked⟩ := planned
  refine ⟨property, found, ?_⟩
  rw [store, Scene.track_eq_ok_iff.2 ⟨property, found, isTrack⟩]
  simp only [Attempt.ok_bind, Track.replaceAll_of_ascends ascends checked]
  refine Scene.setTrack_eq_ok_iff.2 ⟨property, found, ?_⟩
  rw [Property.rekeyed, isTrack]
  rfl

/-- Planned keyframes of different tracks can all be stored. -/
theorem storeAll_rekeyed
    {plan : List (PropertyAddress × List Keyframe × List Keyframe)}
    {keyed : PropertyAddress → Option (List Keyframe)}
    (distinct : (plan.map Prod.fst).Nodup)
    (planned : ∀ item ∈ plan, Planned scene item)
    (inside : ∀ item ∈ plan, keyed item.1 = some item.2.2)
    (outside : ∀ address, address ∉ plan.map Prod.fst → keyed address = none) :
    ∃ final,
      storeAll scene (plan.map fun item => (item.1, item.2.2)) =
        (final, plan.length, .ok ()) ∧
      scene.Rekeyed keyed final := by
  induction plan generalizing scene keyed with
  | nil =>
      exact ⟨scene, rfl, .refl fun address => outside address List.not_mem_nil⟩
  | cons item rest inductionHypothesis =>
      obtain ⟨fresh, distinctRest⟩ := List.nodup_cons.1 distinct
      obtain ⟨property, found, stored⟩ :=
        store_rekeyed (planned item List.mem_cons_self)
      have named : property.name = item.1.property :=
        Scene.name_of_property found
      have apart : ∀ other ∈ rest, other.1 ≠ item.1 := fun other member same =>
        fresh (List.mem_map.2 ⟨other, member, same⟩)
      obtain ⟨final, storedRest, rekeyed⟩ :=
        @inductionHypothesis
          (scene.withProperty item.1 (property.rekeyed item.2.2))
          (fun other => if other = item.1 then none else keyed other)
          distinctRest
          (fun other member =>
            (planned other (List.mem_cons_of_mem item member)).withProperty
            (property.rekeyed item.2.2) named (apart other member))
          (fun other member => by
            rw [if_neg (apart other member),
              inside other (List.mem_cons_of_mem item member)])
          (fun address unlisted => by
            split
            · rfl
            · next differs =>
                exact outside address (by simp [differs, unlisted]))
      refine ⟨final, ?_, .cons found (inside item List.mem_cons_self) rekeyed⟩
      simp only [List.map_cons, storeAll, stored, storedRest, List.length_cons]

/-- The keyframes that a selected track gets. -/
def retimed
    (command : MoveKeyframes)
    (scene : Scene)
    (address : PropertyAddress) :
    Option (List Keyframe) := do
  let frames ← command.selection[address]?
  let track ← (scene.track address).toOption
  return Track.sortKeyframes
    (track.keyframes.map (Keyframe.shifted frames command.offset))

/-- Something is selected if one of the sets of frames has a member. -/
theorem count_ne_zero
    {address : PropertyAddress}
    {frames : FrameSet}
    {frame : Int32}
    (selected : command.selection[address]? = some frames)
    (member : frame ∈ frames) :
    command.count ≠ 0 := by
  have listed := Std.ExtTreeMap.mem_toList_iff_getElem?_eq_some.2 selected
  have among := Std.ExtTreeSet.mem_toList.2 member
  rw [count, Ne, List.length_eq_zero_iff]
  exact List.ne_nil_of_mem
    (List.mem_flatMap.2 ⟨(address, frames), listed, among⟩)

/-- All tracks can be planned if and only if the selected keyframes of every
track can move. -/
theorem exists_plan_iff (ordered : scene.KeyframesOrdered) :
    (∃ plan, command.plan scene = .ok plan) ↔
      ∀ address frames, command.selection[address]? = some frames →
        ∃ track, scene.track address = .ok track ∧
          track.Movable frames command.offset := by
  rw [plan, Attempt.exists_mapM_iff]
  simp only [Prod.forall, Std.ExtTreeMap.mem_toList_iff_getElem?_eq_some,
    planTrack_eq_ok_iff ordered]
  refine forall_congr' fun address => forall_congr' fun frames =>
    imp_congr_right fun _ => ?_
  rw [exists_comm]
  simp

/-- What is planned. -/
theorem mem_plan
    (ordered : scene.KeyframesOrdered)
    {plan : List (PropertyAddress × List Keyframe × List Keyframe)}
    (isPlan : command.plan scene = .ok plan)
    {item : PropertyAddress × List Keyframe × List Keyframe}
    (member : item ∈ plan) :
    Planned scene item ∧ command.retimed scene item.1 = some item.2.2 := by
  obtain ⟨⟨address, frames⟩, listed, planned⟩ :=
    Attempt.exists_of_mem_mapM isPlan member
  obtain ⟨track, known, movable, rfl⟩ := (planTrack_eq_ok_iff ordered).1 planned
  have selected := Std.ExtTreeMap.mem_toList_iff_getElem?_eq_some.1 listed
  have inOrder := ordered.of_track known
  obtain ⟨property, found, isTrack⟩ := Scene.track_eq_ok_iff.1 known
  refine ⟨⟨property, track, found, isTrack, rfl,
    movable.ascends inOrder.1, ?_⟩, ?_⟩
  · intro moved among
    obtain ⟨keyframe, isKeyframe, rfl⟩ :=
      List.mem_map.1 ((Track.sortKeyframes_perm _).mem_iff.1 among)
    exact Track.check_shifted (inOrder.2 keyframe isKeyframe)
  · simp [retimed, selected, known, Except.toOption]

/-- Every selected track is planned once. -/
theorem fst_plan
    (ordered : scene.KeyframesOrdered)
    {plan : List (PropertyAddress × List Keyframe × List Keyframe)}
    (isPlan : command.plan scene = .ok plan) :
    plan.map Prod.fst = command.selection.keys := by
  have all := Attempt.mapM_eq_ok_iff.1 isPlan
  rw [← Std.ExtTreeMap.map_fst_toList_eq_keys]
  clear isPlan
  generalize command.selection.toList = selected at all
  induction all with
  | nil => rfl
  | cons first _ inductionHypothesis =>
      obtain ⟨_, _, _, rfl⟩ := (planTrack_eq_ok_iff ordered).1 first
      rw [List.map_cons, List.map_cons, inductionHypothesis]

/-- Selected keyframes move at once: all of them if every one can, and otherwise
none. -/
theorem shifts_at_once
    (ordered : document.scene.KeyframesOrdered)
    (moves : command.offset ≠ 0)
    {chosen : PropertyAddress}
    {times : FrameSet}
    {time : Int32}
    (selected : command.selection[chosen]? = some times)
    (member : time ∈ times) :
    ((command.apply document).result = .ok .changed ↔
      ∀ address frames, command.selection[address]? = some frames →
        ∃ track, document.scene.track address = .ok track ∧
          track.Movable frames command.offset) ∧
    ((command.apply document).result = .ok .changed →
      ∃ scene keyed, (command.apply document).state = { document with scene } ∧
        document.scene.Rekeyed keyed scene ∧ ∀ address,
          (command.selection[address]? = none → keyed address = none) ∧
          ∀ frames, command.selection[address]? = some frames →
            ∃ track keyframes, document.scene.track address = .ok track ∧
              keyed address = some keyframes ∧
              scene.track address = .ok { track with keyframes } ∧
              Track.Ascends keyframes ∧
              keyframes.Perm
                  (track.keyframes.map
                    (Keyframe.shifted frames command.offset))) ∧
    ((command.apply document).result ≠ .ok .changed →
      ∃ fault, command.apply document = .failed command document fault) := by
  rw [← exists_plan_iff ordered, apply,
    if_neg (not_or.2 ⟨moves, count_ne_zero selected member⟩)]
  cases planned : command.plan document.scene with
  | error fault =>
      refine ⟨iff_of_false (by rintro ⟨⟩) (by rintro ⟨_, ⟨⟩⟩), by rintro ⟨⟩,
        fun _ => ⟨fault, rfl⟩⟩
  | ok plan =>
      have keys := fst_plan ordered planned
      obtain ⟨scene, stored, rekeyed⟩ :=
        storeAll_rekeyed (keys ▸ Std.ExtTreeMap.nodup_keys)
          (fun item among => (mem_plan ordered planned among).1)
          (fun item among => (mem_plan ordered planned among).2) (by
            intro address unlisted
            rw [keys, Std.ExtTreeMap.mem_keys] at unlisted
            simp [retimed, Std.ExtTreeMap.getElem?_eq_none unlisted])
      simp only [stored, Attempt.map_ok, true_iff, true_implies]
      refine ⟨⟨plan, rfl⟩,
        ⟨scene, command.retimed document.scene, rfl, rekeyed, ?_⟩, absurd rfl⟩
      intro address
      refine ⟨fun unselected => by simp [retimed, unselected], ?_⟩
      intro frames isSelected
      obtain ⟨track, known, movable⟩ :=
        (exists_plan_iff ordered).1 ⟨plan, planned⟩ address frames isSelected
      have isKeyed :
          command.retimed document.scene address = some (Track.sortKeyframes
          (track.keyframes.map (Keyframe.shifted frames command.offset))) := by
        simp [retimed, isSelected, known, Except.toOption]
      exact ⟨track, _, known, isKeyed, rekeyed.track_eq known isKeyed,
        movable.ascends (ordered.of_track known).1, Track.sortKeyframes_perm _⟩

/-- A root with two animated properties. -/
def animated : Snapshot where
  id := ⟨7⟩
  root := ⟨1⟩
  styles := []
  tools := []
  selection := []
  clock := .new {}
  owners := [
    { id := ⟨1⟩
      kind := .object .empty
      properties := [
        { Property.ofValue "turns" (.integer 0) with
          track := some ⟨⟨⟨1⟩, "turns"⟩, .integer, .linear,
            [⟨1, .integer 10, none⟩, ⟨5, .integer 20, none⟩,
              ⟨7, .integer 30, none⟩]⟩ },
        { Property.ofValue "laps" (.integer 0) with
          track := some ⟨⟨⟨1⟩, "laps"⟩, .integer, .step,
            [⟨-2147483648, .integer 1, none⟩,
              ⟨2147483643, .integer 2, none⟩]⟩ }] }]

/-- One keyframe takes the frame of another one, which passes a third, and one
moves to the last frame. -/
def forward : MoveKeyframes where
  selection :=
    ((∅ : KeyframeSelection).insert ⟨⟨1⟩, "turns"⟩ {1, 5}).insert
      ⟨⟨1⟩, "laps"⟩ {2147483643}
  offset := 4

theorem shifts_at_once_forward :
    let document := Document.unchecked animated {}
    document.scene.KeyframesOrdered ∧
      (forward.apply document).result = .ok .changed ∧
      ∃ scene keyed, (forward.apply document).state = { document with scene } ∧
        document.scene.Rekeyed keyed scene ∧ ∀ address,
          (forward.selection[address]? = none → keyed address = none) ∧
          ∀ frames, forward.selection[address]? = some frames →
            ∃ track keyframes, document.scene.track address = .ok track ∧
              keyed address = some keyframes ∧
              scene.track address = .ok { track with keyframes } ∧
              Track.Ascends keyframes ∧
              keyframes.Perm
                (track.keyframes.map
                  (Keyframe.shifted frames forward.offset)) := by
  have loaded : Document.ofSnapshot animated {} =
      .ok (Document.unchecked animated {}) := rfl
  have ordered := (Document.wellFormed_ofSnapshot loaded .nil .nil
    (Scene.forall_mem_toList.1 (by decide))).keyframesOrdered
  have selected : forward.selection[(⟨⟨1⟩, "turns"⟩ : PropertyAddress)]? =
      some {1, 5} := rfl
  have result : (forward.apply (Document.unchecked animated {})).result =
      .ok .changed := rfl
  have member : (5 : Int32) ∈ ({1, 5} : FrameSet) := by decide
  exact ⟨ordered, result,
    (shifts_at_once ordered (by decide) selected member).2.1 result⟩

end MoveKeyframes
end MotionScene
