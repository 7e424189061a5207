import MotionScene.Proofs.Command.Edit
import MotionScene.Proofs.Scene.Numbering

/-!
# The owners that edits record

An edit records the owners that it is about and those that it remembers.
Carrying an edit out brings in no number that is still to be given out, and the
owners of an edit that changed something are among those whose numbers were
given out.  Taking an edit back needs no numbers at all.

Some owners are only named: a conversion passes over those that it does not
find, and a new owner is added without the links that it comes with.  Nothing is
known of their numbers.

This holds on any scene, however its links are tangled.
-/

namespace MotionScene

/-- No number in the scene is still to be given out. -/
def Document.Numbered (document : Document) : Prop :=
  document.scene.Names (OwnerId.Below document.nextId)

namespace Edit

/-- The owners that an edit is about, and that it needs. -/
def addressed : Edit → List OwnerId
  | setProperty command => command.targets ++ command.value.target?.toList
  | setSelection command => command.selection.toList
  | createTrack command => [command.address.owner]
  | removeTrack command => [command.address.owner]
  | createKeyframe command => [command.address.owner]
  | removeKeyframe command => [command.address.owner]
  | moveKeyframes command =>
    command.selection.toList.map fun (address, _) => address.owner
  | setInterpolation command => [command.address.owner]
  | editPath command => [command.path]
  | addOwners command => command.items.flatMap fun item =>
      item.owner.id :: (item.slot.host?.toList ++ item.owner.targets)
  | removeOwners command => command.roots
  | reparent command =>
    command.moves.flatMap fun (id, slot) => id :: slot.host?.toList
  | copyObjects command => command.parent :: command.sources
  | convert _ => []

/-- The owners that an edit names and can do without. -/
def passedOver : Edit → List OwnerId
  | addOwners command => command.items.flatMap fun item =>
      item.owner.parent.toList ++ item.owner.children ++ item.owner.tags
  | convert command => command.targets
  | _ => []

/-- The owners that an edit remembers from what it did. -/
def remembered : Edit → List OwnerId
  | setProperty command =>
      command.previous.flatMap fun (owner, value) =>
        owner :: value.target?.toList
  | setSelection command => command.previous.toList
  | moveKeyframes command =>
    command.previous.map fun (address, _) => address.owner
  | addOwners command => command.transition.toList.flatMap Transition.named
  | removeOwners command => command.transition.toList.flatMap Transition.named
  | reparent command =>
    command.previous.flatMap fun (id, slot) => id :: slot.host?.toList
  | copyObjects command =>
    command.copies ++ command.transition.toList.flatMap Transition.named
  | convert command =>
      (command.converted.flatMap fun (source, path) => [source, path]) ++
        command.transition.toList.flatMap Transition.named
  | createTrack _ | removeTrack _ | createKeyframe _ | removeKeyframe
    _ | setInterpolation _
  | editPath _ => []

/-- The owners that an edit records and may bring back. -/
def recorded (edit : Edit) : List OwnerId :=
  edit.addressed ++ edit.remembered

/-- An edit that needs no numbers to make its change, or needs no more as it
remembers the change. -/
def Done : Edit → Prop
  | addOwners command => command.transition.isSome
  | removeOwners command => command.transition.isSome
  | copyObjects command => command.transition.isSome
  | convert command => command.transition.isSome
  | setProperty _ | setSelection _ | createTrack _ | removeTrack
    _ | createKeyframe _
  | removeKeyframe _ | moveKeyframes _ | setInterpolation _ | editPath
      _ | reparent _ => True

/-- What carrying an edit out does to the numbers of a document. -/
structure Advances
    (edit : Edit)
    (document : Document)
    (step : Step Edit Document Outcome) :
    Prop where
  later : document.nextId ≤ step.state.nextId
  steady : edit.Done → step.state.nextId = document.nextId
  numbered : step.state.Numbered
  request : step.command.addressed = edit.addressed
  addressed : step.result = .ok .changed →
    ∀ id ∈ edit.addressed, id.Below step.state.nextId
  remembered : ∀ id ∈ step.command.remembered, id.Below step.state.nextId
  done : step.result = .ok .changed ∨ edit.Done → step.command.Done

namespace Advances

variable {document : Document} {edit : Edit}

/-- An edit that does nothing. -/
theorem stay
    (numbered : document.Numbered)
    (remembered : ∀ id ∈ edit.remembered, id.Below document.nextId)
    {result : Except Fault Outcome}
    (unchanged : result ≠ .ok .changed) :
    edit.Advances document ⟨edit, document, result⟩ where
  later := Nat.le_refl _
  steady _ := rfl
  numbered := numbered
  request := rfl
  addressed changed := absurd changed unchanged
  remembered := remembered
  done isDone := isDone.resolve_left unchanged

theorem idle
    (numbered : document.Numbered)
    (remembered : ∀ id ∈ edit.remembered, id.Below document.nextId) :
    edit.Advances document ⟨edit, document, .ok .noop⟩ :=
  stay numbered remembered (by simp)

theorem failed
    (numbered : document.Numbered)
    (remembered : ∀ id ∈ edit.remembered, id.Below document.nextId)
    {fault : Fault} :
    edit.Advances document ⟨edit, document, .error fault⟩ :=
  stay numbered remembered (by simp)

/-- An edit that remembers no owners, and changes the scene or fails. -/
theorem ofScene
    {κ : Type}
    {view : κ → Edit}
    {command : κ}
    (numbered : document.Numbered)
    (forgets : ∀ after, (view after).remembered = [])
    (done : ∀ after, (view after).Done)
    {outcome : Except Fault (κ × Scene × Outcome)}
    (ends : ∀ after scene result, outcome = .ok (after, scene, result) →
      (view after).addressed = (view command).addressed ∧
        scene.Names (OwnerId.Below document.nextId) ∧
        ∀ id ∈ (view command).addressed, id.Below document.nextId) :
    (view command).Advances document
      ((Step.ofScene command document outcome).map view) := by
  have silent : ∀ after, ∀ id ∈ (view after).remembered,
      id.Below document.nextId := by
    intro after
    rw [forgets after]
    exact List.forall_mem_nil _
  cases outcome with
  | error fault => exact failed numbered (silent command)
  | ok triple =>
      obtain ⟨after, scene, result⟩ := triple
      obtain ⟨request, names, addressed⟩ := ends after scene result rfl
      exact ⟨Nat.le_refl _, fun _ => rfl, names, request, fun _ => addressed,
        silent after, fun _ => done after⟩

end Advances
end Edit

/-! ## Values and the selection -/

namespace SetProperty

variable {scene : Scene} {allowed : OwnerId → Prop} {name : String}

theorem names_storeAll
    (names : scene.Names allowed)
    {items : List (OwnerId × Value)}
    (isAllowed : ∀ item ∈ items, ∀ target, item.2.target? = some target →
      allowed target) :
    (storeAll scene name items).1.Names allowed := by
  induction items generalizing scene with
  | nil => exact names
  | cons item rest inductionHypothesis =>
      rw [List.forall_mem_cons] at isAllowed
      rw [storeAll]
      split
      · next stored isStored =>
          exact inductionHypothesis
            (names.store isStored isAllowed.1) isAllowed.2
      · exact names

/-- What is planned for an owner concerns the owner and what the old and the new
value refer to. -/
theorem allowed_of_planned
    (names : scene.Names allowed)
    {item : OwnerId × Value × Value}
    (planned : Planned scene name item) :
    allowed item.1 ∧
      (∀ target, item.2.1.target? = some target → allowed target) ∧
      ∀ target, item.2.2.target? = some target → allowed target := by
  obtain ⟨property, found, same, _, permits⟩ := planned
  obtain ⟨owner, targets⟩ := names.property found
  refine ⟨owner, same ▸ targets, fun target refers => ?_⟩
  obtain ⟨category, known, _⟩ := permits target refers
  exact names.category known

theorem target?_of_coerce
    {property : Property}
    {value coerced : Value}
    (isCoerced : property.coerce value = .ok coerced) :
    coerced.target? = value.target? := by
  rw [Property.coerce] at isCoerced
  split at isCoerced
  · cases isCoerced
    cases value <;> rfl
  · cases isCoerced

/-- A value that is assigned to some owner refers to nothing new. -/
theorem allowed_of_prepared
    (names : scene.Names allowed)
    {command : SetProperty}
    {plan : List (OwnerId × Value × Value)}
    (prepared : command.prepare scene = .ok plan)
    (nonempty : plan ≠ []) :
    ∀ target, command.value.target? = some target → allowed target := by
  obtain ⟨item, member⟩ := List.exists_mem_of_ne_nil plan nonempty
  obtain ⟨owner, _, isPlanned⟩ := Attempt.exists_of_mem_mapM prepared member
  have refers :=
    (allowed_of_planned names (planned_of_prepareOne isPlanned).2).2.2
  unfold prepareOne at isPlanned
  obtain ⟨property, _, isPlanned⟩ := Attempt.bind_eq_ok_iff.1 isPlanned
  obtain ⟨coerced, isCoerced, isPlanned⟩ := Attempt.bind_eq_ok_iff.1 isPlanned
  obtain ⟨_, _, same⟩ := Attempt.bind_eq_ok_iff.1 isPlanned
  cases same
  rwa [target?_of_coerce isCoerced] at refers

theorem advances
    {document : Document}
    (numbered : document.Numbered)
    {command : SetProperty}
    (remembered : ∀ id ∈ (Edit.setProperty command).remembered,
      id.Below document.nextId) :
    (Edit.setProperty command).Advances document
      ((Edit.setProperty command).apply document) := by
  rw [Edit.apply, apply]
  cases prepared : command.prepare document.scene with
  | error fault => exact .failed numbered remembered
  | ok plan =>
      simp only
      split
      · exact .idle numbered remembered
      · next differs =>
        obtain ⟨targets, planned⟩ := planned_of_prepare prepared
        have isAllowed :=
          fun item member => allowed_of_planned numbered (planned item member)
        have nonempty : plan ≠ [] := by
          rintro rfl
          exact differs rfl
        constructor
        case later => exact Nat.le_refl _
        case steady => exact fun _ => rfl
        case done => exact fun _ => trivial
        case numbered =>
          refine names_storeAll numbered ?_
          simp only [List.forall_mem_map]
          exact fun item member => (isAllowed item member).2.2
        case request => rfl
        case addressed =>
          intro _
          simp only [Edit.addressed, List.forall_mem_append,
            Option.mem_toList, ← targets, List.forall_mem_map]
          exact ⟨fun item member => (isAllowed item member).1,
            allowed_of_prepared numbered prepared nonempty⟩
        case remembered =>
          simp only [Edit.remembered, Step.map, List.forall_mem_flatMap,
            List.forall_mem_map, List.forall_mem_cons, Option.mem_toList]
          exact fun item member =>
            ⟨(isAllowed item member).1, (isAllowed item member).2.1⟩

end SetProperty

namespace SetSelection

theorem advances
    {document : Document}
    (numbered : document.Numbered)
    {command : SetSelection}
    (remembered : ∀ id ∈ (Edit.setSelection command).remembered,
      id.Below document.nextId) :
    (Edit.setSelection command).Advances document
      ((Edit.setSelection command).apply document) := by
  rw [Edit.apply, apply]
  split
  · exact .failed numbered remembered
  · next allKnown =>
    split
    · exact .idle numbered remembered
    · have known : ∀ id ∈ command.selection.toList,
          id.Below document.nextId := by
        intro id member
        exact numbered.known
          (by simpa using List.find?_eq_none.1 allKnown id member)
      refine ⟨Nat.le_refl _, fun _ => rfl, ?_, rfl, fun _ => known, ?_,
        fun _ => trivial⟩
      · exact ⟨numbered.owners, numbered.styles, numbered.tools,
          fun id member => known id (Std.ExtTreeSet.mem_toList.2 member)⟩
      · exact fun id member =>
          numbered.selection id (Std.ExtTreeSet.mem_toList.1 member)

end SetSelection

/-! ## Tracks and keyframes -/

namespace Scene.Names

variable {scene changed : Scene} {allowed : OwnerId → Prop}
  {address : PropertyAddress}

theorem setTrack
    (names : scene.Names allowed)
    {track : Option Track}
    (isSet : scene.setTrack address track = .ok changed) :
    changed.Names allowed ∧ ∀ id ∈ [address.owner], allowed id := by
  obtain ⟨property, found, rfl⟩ := setTrack_eq_ok_iff.1 isSet
  obtain ⟨owner, targets⟩ := names.property found
  exact ⟨names.withProperty address targets, List.forall_mem_singleton.2 owner⟩

theorem track
    (names : scene.Names allowed)
    {track : Track}
    (found : scene.track address = .ok track) :
    ∀ id ∈ [address.owner], allowed id := by
  obtain ⟨property, isProperty, _⟩ := track_eq_ok_iff.1 found
  exact List.forall_mem_singleton.2 (names.property isProperty).1

theorem animatable
    (names : scene.Names allowed)
    {property : Property}
    (found : scene.animatable address = .ok property) :
    ∀ id ∈ [address.owner], allowed id :=
  List.forall_mem_singleton.2
    (names.property (animatable_eq_ok_iff.1 found).1).1

end Scene.Names

namespace CreateTrack

theorem advances
    {document : Document}
    (numbered : document.Numbered)
    (command : CreateTrack) :
    (Edit.createTrack command).Advances document
      ((Edit.createTrack command).apply document) := by
  refine .ofScene numbered (fun _ => rfl) ?_ fun after scene result isDone => ?_
  · exact fun _ => trivial
  obtain ⟨property, found, isDone⟩ := Attempt.bind_eq_ok_iff.1 isDone
  split at isDone
  · cases isDone
    exact ⟨rfl, numbered, numbered.animatable found⟩
  · obtain ⟨track, _, isDone⟩ := Attempt.bind_eq_ok_iff.1 isDone
    obtain ⟨changed, isSet, same⟩ := Attempt.bind_eq_ok_iff.1 isDone
    cases same
    exact ⟨rfl, numbered.setTrack isSet⟩

end CreateTrack

namespace RemoveTrack

theorem advances
    {document : Document}
    (numbered : document.Numbered)
    (command : RemoveTrack) :
    (Edit.removeTrack command).Advances document
      ((Edit.removeTrack command).apply document) := by
  refine .ofScene numbered (fun _ => rfl) ?_ fun after scene result isDone => ?_
  · exact fun _ => trivial
  obtain ⟨track, _, isDone⟩ := Attempt.bind_eq_ok_iff.1 isDone
  obtain ⟨changed, isSet, same⟩ := Attempt.bind_eq_ok_iff.1 isDone
  cases same
  exact ⟨rfl, numbered.setTrack isSet⟩

end RemoveTrack

namespace CreateKeyframe

variable {document : Document} {allowed : OwnerId → Prop}

theorem advances (numbered : document.Numbered) (command : CreateKeyframe) :
    (Edit.createKeyframe command).Advances document
      ((Edit.createKeyframe command).apply document) := by
  refine .ofScene numbered (fun _ => rfl) ?_ fun after scene result isDone => ?_
  · exact fun _ => trivial
  obtain ⟨property, found, isDone⟩ := Attempt.bind_eq_ok_iff.1 isDone
  obtain ⟨value, _, isDone⟩ := Attempt.bind_eq_ok_iff.1 isDone
  simp only at isDone
  split at isDone
  · cases isDone
    exact ⟨rfl, numbered, numbered.animatable found⟩
  · obtain ⟨track, _, isDone⟩ := Attempt.bind_eq_ok_iff.1 isDone
    obtain ⟨changed, isSet, same⟩ := Attempt.bind_eq_ok_iff.1 isDone
    cases same
    exact ⟨rfl, numbered.setTrack isSet⟩

theorem names_back
    {scene changed : Scene}
    (names : scene.Names allowed)
    {command : CreateKeyframe}
    (isBack : command.back scene = .ok changed) :
    changed.Names allowed := by
  unfold back at isBack
  split at isBack
  · exact (names.setTrack isBack).1
  · obtain ⟨track, _, isBack⟩ := Attempt.bind_eq_ok_iff.1 isBack
    split at isBack
    · obtain ⟨replaced, _, isSet⟩ := Attempt.bind_eq_ok_iff.1 isBack
      exact (names.setTrack isSet).1
    · exact (names.setTrack isBack).1

end CreateKeyframe

namespace RemoveKeyframe

variable {document : Document} {allowed : OwnerId → Prop}

theorem advances (numbered : document.Numbered) (command : RemoveKeyframe) :
    (Edit.removeKeyframe command).Advances document
      ((Edit.removeKeyframe command).apply document) := by
  refine .ofScene numbered (fun _ => rfl) ?_ fun after scene result isDone => ?_
  · exact fun _ => trivial
  rw [run] at isDone
  obtain ⟨track, _, isDone⟩ := Attempt.bind_eq_ok_iff.1 isDone
  cases missing : (track.keyframe? command.frame).isNone with
  | true =>
      rw [if_pos missing] at isDone
      cases isDone
  | false =>
      simp only [missing, Bool.false_eq_true, if_false] at isDone
      obtain ⟨changed, isSet, same⟩ := Attempt.bind_eq_ok_iff.1 isDone
      cases same
      exact ⟨rfl, numbered.setTrack isSet⟩

theorem names_back
    {scene changed : Scene}
    (names : scene.Names allowed)
    {command : RemoveKeyframe}
    (isBack : command.back scene = .ok changed) :
    changed.Names allowed := by
  unfold back at isBack
  split at isBack
  · obtain ⟨track, _, isBack⟩ := Attempt.bind_eq_ok_iff.1 isBack
    obtain ⟨restored, _, isSet⟩ := Attempt.bind_eq_ok_iff.1 isBack
    exact (names.setTrack isSet).1
  · cases isBack
    exact names

end RemoveKeyframe

namespace SetInterpolation

variable {allowed : OwnerId → Prop}

theorem names_store
    {scene changed : Scene}
    (names : scene.Names allowed)
    {address : PropertyAddress}
    {interpolation : Interpolation}
    (isStored : store scene address interpolation = .ok changed) :
    changed.Names allowed ∧ ∀ id ∈ [address.owner], allowed id := by
  obtain ⟨track, _, isSet⟩ := Attempt.bind_eq_ok_iff.1 isStored
  exact names.setTrack isSet

theorem advances
    {document : Document}
    (numbered : document.Numbered)
    (command : SetInterpolation) :
    (Edit.setInterpolation command).Advances document
      ((Edit.setInterpolation command).apply document) := by
  refine .ofScene numbered (fun _ => rfl) ?_ fun after scene result isDone => ?_
  · exact fun _ => trivial
  obtain ⟨track, found, isDone⟩ := Attempt.bind_eq_ok_iff.1 isDone
  split at isDone
  · cases isDone
    exact ⟨rfl, numbered, numbered.track found⟩
  · obtain ⟨changed, isStored, same⟩ := Attempt.bind_eq_ok_iff.1 isDone
    cases same
    exact ⟨rfl, names_store numbered isStored⟩

end SetInterpolation

namespace MoveKeyframes

variable {scene : Scene} {allowed : OwnerId → Prop}

theorem names_storeAll
    (names : scene.Names allowed)
    (items : List (PropertyAddress × List Keyframe)) :
    (storeAll scene items).1.Names allowed := by
  induction items generalizing scene with
  | nil => exact names
  | cons item rest inductionHypothesis =>
      rw [storeAll]
      split
      · next stored isStored =>
        obtain ⟨track, _, isStored⟩ := Attempt.bind_eq_ok_iff.1 isStored
        obtain ⟨replaced, _, isSet⟩ := Attempt.bind_eq_ok_iff.1 isStored
        exact inductionHypothesis (names.setTrack isSet).1
      · exact names

/-- A plan is about the selected tracks, which exist. -/
theorem allowed_of_plan
    (names : scene.Names allowed)
    {command : MoveKeyframes}
    {plan : List (PropertyAddress × List Keyframe × List Keyframe)}
    (planned : command.plan scene = .ok plan) :
    (∀ item ∈ command.selection.toList, allowed item.1.owner) ∧
      ∀ item ∈ plan, allowed item.1.owner := by
  have all := Attempt.mapM_eq_ok_iff.1 planned
  clear planned
  generalize command.selection.toList = selected at all
  induction all with
  | nil => exact ⟨List.forall_mem_nil _, List.forall_mem_nil _⟩
  | @cons item result others results isPlanned _ inductionHypothesis =>
      obtain ⟨track, found, isPlanned⟩ := Attempt.bind_eq_ok_iff.1 isPlanned
      have isAllowed := List.forall_mem_singleton.1 (names.track found)
      have same : result.1 = item.1 := by
        split at isPlanned
        · cases isPlanned
        · obtain ⟨moved, _, isPlanned⟩ := Attempt.bind_eq_ok_iff.1 isPlanned
          simp only at isPlanned
          split at isPlanned
          · cases isPlanned
          · cases isPlanned
            rfl
      exact ⟨List.forall_mem_cons.2 ⟨isAllowed, inductionHypothesis.1⟩,
        List.forall_mem_cons.2 ⟨same ▸ isAllowed, inductionHypothesis.2⟩⟩

theorem advances
    {document : Document}
    (numbered : document.Numbered)
    {command : MoveKeyframes}
    (remembered : ∀ id ∈ (Edit.moveKeyframes command).remembered,
      id.Below document.nextId) :
    (Edit.moveKeyframes command).Advances document
      ((Edit.moveKeyframes command).apply document) := by
  rw [Edit.apply, apply]
  split
  · exact .idle numbered remembered
  · cases planned : command.plan document.scene with
    | error fault => exact .failed numbered remembered
    | ok plan =>
        obtain ⟨selected, isPlanned⟩ := allowed_of_plan numbered planned
        refine ⟨Nat.le_refl _, fun _ => rfl, names_storeAll numbered _, rfl,
          fun _ => ?_, ?_, fun _ => trivial⟩
        · exact List.forall_mem_map.2 selected
        · simp only [Edit.remembered, Step.map, List.forall_mem_map]
          exact fun item member => isPlanned item (List.mem_of_mem_take member)

end MoveKeyframes

/-! ## Paths and places -/

namespace EditPath

theorem names_setGeometry
    {scene changed : Scene}
    {allowed : OwnerId → Prop}
    (names : scene.Names allowed)
    {id : OwnerId}
    {shape : Path Float}
    (isSet : scene.setGeometry id shape = .ok changed) :
    changed.Names allowed ∧ allowed id := by
  obtain ⟨⟨old, known⟩, rfl⟩ := Scene.setGeometry_eq_ok_iff.1 isSet
  obtain ⟨owner, found, _⟩ := Scene.geometry_eq_ok_iff.1 known
  exact ⟨names.modify fun _ named => named, names.owner found⟩

theorem advances
    {document : Document}
    (numbered : document.Numbered)
    (command : EditPath) :
    (Edit.editPath command).Advances document
      ((Edit.editPath command).apply document) := by
  rw [Edit.apply, apply]
  cases command.sides document.scene with
  | error fault => exact .failed numbered (List.forall_mem_nil _)
  | ok sides =>
      simp only
      split
      · exact .idle numbered (List.forall_mem_nil _)
      · cases isSet : document.scene.setGeometry command.path sides.2 with
        | error fault => exact .failed numbered (List.forall_mem_nil _)
        | ok changed =>
            obtain ⟨names, path⟩ := names_setGeometry numbered isSet
            exact ⟨Nat.le_refl _, fun _ => rfl, names, rfl,
              fun _ => List.forall_mem_singleton.2 path, List.forall_mem_nil _,
              fun _ => trivial⟩

end EditPath

namespace Reparent

variable {scene : Scene} {allowed : OwnerId → Prop}

/-- A slot that is held by an allowed owner, if by any. -/
def Held (allowed : OwnerId → Prop) (item : OwnerId × Slot) : Prop :=
  allowed item.1 ∧ ∀ host, item.2.host? = some host → allowed host

theorem forall_mem_flatMap_iff {items : List (OwnerId × Slot)} :
    (∀ id ∈ items.flatMap (fun (id, slot) => id :: slot.host?.toList),
      allowed id) ↔ ∀ item ∈ items, Held allowed item := by
  simp only [List.forall_mem_flatMap, List.forall_mem_cons,
    Option.mem_toList, Held]

theorem names_unwind
    (names : scene.Names allowed)
    (items : List (OwnerId × Slot)) :
    (unwind scene items).1.Names allowed := by
  induction items generalizing scene with
  | nil => exact names
  | cons item rest inductionHypothesis =>
      obtain ⟨id, old⟩ := item
      rw [unwind]
      cases isDetached : scene.detach id with
      | error fault => exact names
      | ok pair =>
          have detached := (names.detach isDetached).1
          simp only
          cases isAttached : pair.1.attach id old with
          | error fault => exact detached
          | ok attached =>
              exact inductionHypothesis (detached.attach isAttached).1

/-- A moved owner came from a slot and got to another one. -/
theorem names_moveOne
    (names : scene.Names allowed)
    (id : OwnerId)
    (slot : Slot) :
    (moveOne scene id slot).1.Names allowed ∧
      ∀ old, (moveOne scene id slot).2 = .ok old →
        Held allowed (id, slot) ∧ Held allowed (id, old) := by
  unfold moveOne
  cases isDetached : scene.detach id with
  | error fault => exact ⟨names, nofun⟩
  | ok pair =>
      obtain ⟨detached, hosts⟩ := names.detach isDetached
      simp only
      cases isAttached : pair.1.attach id slot with
      | ok attached =>
          obtain ⟨attachedNames, isAllowed, newHosts⟩ :=
            detached.attach isAttached
          refine ⟨attachedNames, ?_⟩
          rintro old ⟨⟩
          exact ⟨⟨isAllowed, newHosts⟩, isAllowed, hosts⟩
      | error fault =>
          simp only
          cases isBack : pair.1.attach id pair.2 with
          | ok restored => exact ⟨(detached.attach isBack).1, nofun⟩
          | error second => exact ⟨detached, nofun⟩

theorem names_moveAll
    (names : scene.Names allowed)
    {done : List (OwnerId × Slot)}
    (held : ∀ item ∈ done, Held allowed item)
    (moves : List (OwnerId × Slot)) :
    (moveAll scene done moves).1.Names allowed ∧
      ∀ all, (moveAll scene done moves).2 = .ok all →
        (∀ item ∈ moves, Held allowed item) ∧ ∀ item ∈ all,
          Held allowed item := by
  induction moves generalizing scene done with
  | nil =>
      refine ⟨names, ?_⟩
      rintro all ⟨⟩
      exact ⟨List.forall_mem_nil _, held⟩
  | cons move rest inductionHypothesis =>
      obtain ⟨id, slot⟩ := move
      have moved := names_moveOne names id slot
      rw [moveAll]
      cases outcome : moveOne scene id slot with
      | mk after result =>
          rw [outcome] at moved
          cases result with
          | ok old =>
              obtain ⟨isNew, isOld⟩ := moved.2 old rfl
              obtain ⟨final, ends⟩ := inductionHypothesis moved.1
                (List.forall_mem_cons.2 ⟨isOld, held⟩)
              refine ⟨final, fun all isAll => ?_⟩
              exact ⟨List.forall_mem_cons.2 ⟨isNew, (ends all isAll).1⟩,
                (ends all isAll).2⟩
          | error fault =>
              refine ⟨names_unwind moved.1 done, fun all isAll => ?_⟩
              change (unwind after done).2.bind _ = _ at isAll
              cases result : (unwind after done).2 <;>
                rw [result] at isAll <;> cases isAll

theorem advances
    {document : Document}
    (numbered : document.Numbered)
    {command : Reparent}
    (remembered : ∀ id ∈ (Edit.reparent command).remembered,
      id.Below document.nextId) :
    (Edit.reparent command).Advances document
      ((Edit.reparent command).apply document) := by
  obtain ⟨final, ends⟩ :=
    names_moveAll numbered (List.forall_mem_nil _) command.moves
  rw [Edit.apply, apply]
  cases outcome : moveAll document.scene [] command.moves with
  | mk scene result =>
      rw [outcome] at final ends
      cases result with
      | error fault =>
          exact ⟨Nat.le_refl _, fun _ => rfl, final, rfl, by rintro ⟨⟩,
            remembered, fun _ => trivial⟩
      | ok done =>
          obtain ⟨moves, isDone⟩ := ends done rfl
          simp only
          split
          · exact ⟨Nat.le_refl _, fun _ => rfl, final, rfl, by rintro ⟨⟩,
              remembered, fun _ => trivial⟩
          · exact ⟨Nat.le_refl _, fun _ => rfl, final, rfl,
              fun _ => forall_mem_flatMap_iff.2 moves,
              forall_mem_flatMap_iff.2 isDone, fun _ => trivial⟩

end Reparent
end MotionScene
