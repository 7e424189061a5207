import MotionScene.Command.Basic
import MotionScene.Proofs.Document.Counting
import MotionScene.Proofs.Scene.WellFormed

/-!
# Lawful steps

A step of a command is lawful when it either changes a well-formed document into
another one and can be taken back and made again at will, or leaves everything
as it was but for numbers it used up.  Commands that change many owners piece by
piece are lawful when every piece stays within the owners they touch and the
last one leaves the document well-formed.
-/

namespace MotionScene

namespace Document

/-- The scene is well-formed, and no owner has a number that is still to be
given out.  The latter is so in every document that is new or was read from a
snapshot. -/
structure WellFormed (document : Document) : Prop where
  scene : document.scene.WellFormed
  numbers : ∀ id, document.scene.contains id = true →
    id.number < document.nextId

theorem WellFormed.linked
    {document : Document}
    (wellFormed : document.WellFormed) :
    document.scene.Linked ∅ :=
  (Scene.wellFormed_iff.1 wellFormed.scene).1

theorem WellFormed.sound
    {document : Document}
    (wellFormed : document.WellFormed) :
    document.scene.Sound :=
  (Scene.wellFormed_iff.1 wellFormed.scene).2

/-- Giving numbers out keeps a document well-formed. -/
theorem WellFormed.later
    {document : Document}
    (wellFormed : document.WellFormed)
    {nextId : Nat}
    (later : document.nextId ≤ nextId) :
    { document with nextId }.WellFormed :=
  ⟨wellFormed.scene, fun id known =>
    Nat.lt_of_lt_of_le (wellFormed.numbers id known) later⟩

/-- Another sound scene with the same owners makes a well-formed document. -/
theorem WellFormed.withScene
    {document : Document}
    (wellFormed : document.WellFormed)
    {scene : Scene}
    (linked : scene.Linked ∅)
    (sound : scene.Sound)
    (known : ∀ id, scene.contains id = true →
      document.scene.contains id = true) :
    { document with scene }.WellFormed :=
  ⟨Scene.wellFormed_iff.2 ⟨linked, sound⟩,
    fun id member => wellFormed.numbers id (known id member)⟩

end Document

/-! ## Steps that can be replayed -/

section Steps

variable {κ : Type}
  {apply : κ → Document → Step κ Document Outcome}
  {revert : κ → Document → Step κ Document Unit}

/-- A command that leads from one scene to another whenever it is applied to the
first, and back whenever it is reverted on the second, and stays the same all
the while. -/
structure Replays
    (apply : κ → Document → Step κ Document Outcome)
    (revert : κ → Document → Step κ Document Unit)
    (command : κ)
    (before after : Scene) : Prop where
  back : ∀ document, document.scene = after →
    revert command document =
      ⟨command, { document with scene := before }, .ok ()⟩
  again : ∀ document, document.scene = before →
    apply command document =
      ⟨command, { document with scene := after }, .ok .changed⟩

/-- A step that changes a document into a well-formed one and can be replayed,
or leaves it as it was but for numbers given out. -/
inductive Lawful
    (apply : κ → Document → Step κ Document Outcome)
    (revert : κ → Document → Step κ Document Unit)
    (document : Document) : Step κ Document Outcome → Prop where
  | changed
      (command : κ)
      (scene : Scene)
      (nextId : Nat)
      (later : document.nextId ≤ nextId)
      (wellFormed : { document with scene, nextId }.WellFormed)
      (replays : Replays apply revert command document.scene scene) :
      Lawful apply revert document
        ⟨command, { document with scene, nextId }, .ok .changed⟩
  | idle
      (command : κ)
      (nextId : Nat)
      (later : document.nextId ≤ nextId) :
      Lawful apply revert document
        ⟨command, { document with nextId }, .ok .noop⟩
  | failed
      (command : κ)
      (nextId : Nat)
      (later : document.nextId ≤ nextId)
      (fault : Fault) :
      Lawful apply revert document
        ⟨command, { document with nextId }, .error fault⟩

namespace Lawful

variable {document : Document}

theorem ofIdle (command : κ) :
    Lawful apply revert document (.idle command document) :=
  idle command document.nextId (Nat.le_refl _)

theorem ofFailed (command : κ) (fault : Fault) :
    Lawful apply revert document (.failed command document fault) :=
  failed command document.nextId (Nat.le_refl _) fault

/-- A change of the scene that gives no numbers out. -/
theorem ofScene
    {command : κ}
    {scene : Scene}
    (wellFormed : { document with scene }.WellFormed)
    (replays : Replays apply revert command document.scene scene) :
    Lawful apply revert document
      ⟨command, { document with scene }, .ok .changed⟩ :=
  changed command scene document.nextId (Nat.le_refl _) wellFormed replays

end Lawful

/-- A command seen as another one replays the same change. -/
theorem Replays.map
    {κ' : Type}
    {apply' : κ' → Document → Step κ' Document Outcome}
    {revert' : κ' → Document → Step κ' Document Unit}
    (view : κ → κ')
    (applies : ∀ command document,
      apply' (view command) document = (apply command document).map view)
    (reverts : ∀ command document,
      revert' (view command) document = (revert command document).map view)
    {command : κ}
    {before after : Scene}
    (replays : Replays apply revert command before after) :
    Replays apply' revert' (view command) before after := by
  constructor
  · intro document same
    rw [reverts, replays.back document same]
    rfl
  · intro document same
    rw [applies, replays.again document same]
    rfl

theorem Lawful.map
    {κ' : Type}
    {apply' : κ' → Document → Step κ' Document Outcome}
    {revert' : κ' → Document → Step κ' Document Unit}
    (view : κ → κ')
    (applies : ∀ command document,
      apply' (view command) document = (apply command document).map view)
    (reverts : ∀ command document,
      revert' (view command) document = (revert command document).map view)
    {document : Document}
    {step : Step κ Document Outcome}
    (lawful : Lawful apply revert document step) :
    Lawful apply' revert' document (step.map view) := by
  cases lawful with
  | changed command scene nextId later wellFormed replays =>
      exact .changed (view command) scene nextId later wellFormed
        (replays.map view applies reverts)
  | idle command nextId later => exact .idle (view command) nextId later
  | failed command nextId later fault =>
      exact .failed (view command) nextId later fault

end Steps

/-! ## Checkpoints -/

namespace Scene

/-- Two scenes with the same owners outside a set. -/
structure SameOutside (touched : OwnerSet) (scene other : Scene) : Prop where
  root : other.root = scene.root
  owners : ∀ id, id ∉ touched → other.owner? id = scene.owner? id

namespace SameOutside

variable {touched : OwnerSet} {first second third : Scene}

theorem refl (touched : OwnerSet) (scene : Scene) :
    scene.SameOutside touched scene :=
  ⟨rfl, fun _ _ => rfl⟩

theorem symm (same : first.SameOutside touched second) :
    second.SameOutside touched first :=
  ⟨same.root.symm, fun id outside => (same.owners id outside).symm⟩

theorem trans
    (same : first.SameOutside touched second)
    (onward : second.SameOutside touched third) :
    first.SameOutside touched third :=
  ⟨onward.root.trans same.root,
    fun id outside => (onward.owners id outside).trans (same.owners id outside)⟩

/-! ### The basic changes -/

variable {scene : Scene} {id : OwnerId}

theorem modify (member : id ∈ touched) (change : Owner → Owner) :
    scene.SameOutside touched (scene.modify id change) := by
  refine ⟨rfl, fun other outside => ?_⟩
  rw [owner?_modify, if_neg]
  rintro rfl
  exact outside member

theorem insert (owner : Owner) (member : owner.id ∈ touched) :
    scene.SameOutside touched (scene.insert owner) := by
  refine ⟨rfl, fun other outside => ?_⟩
  rw [owner?_insert, if_neg]
  rintro rfl
  exact outside member

theorem erase (member : id ∈ touched) :
    scene.SameOutside touched (scene.erase id) := by
  refine ⟨rfl, fun other outside => ?_⟩
  rw [owner?_erase, if_neg]
  rintro rfl
  exact outside member

theorem editEntries
    {place : Place}
    (hosts : ∀ host, place.host? = some host → host ∈ touched)
    (edit : List OwnerId → List OwnerId) :
    scene.SameOutside touched (scene.editEntries place edit) := by
  cases place with
  | children host | tags host => exact modify (hosts host rfl) _
  | styles | tools => exact ⟨rfl, fun _ _ => rfl⟩

/-- Taking an owner out of a slot changes it and the host of the slot. -/
theorem released
    (member : id ∈ touched)
    {slot : Slot}
    (hosts : ∀ host, slot.host? = some host → host ∈ touched) :
    scene.SameOutside touched (scene.released id slot) :=
  (editEntries (slot.host?_place.symm ▸ hosts) _).trans (modify member _)

/-- Putting an owner into a slot changes it and the host of the slot. -/
theorem hung
    (member : id ∈ touched)
    {slot : Slot}
    (hosts : ∀ host, slot.host? = some host → host ∈ touched) :
    scene.SameOutside touched (scene.hung id slot) :=
  (editEntries (slot.host?_place.symm ▸ hosts) _).trans (modify member _)

end SameOutside

end Scene

namespace Checkpoint

theorem owner?_restoreOwner (scene source : Scene) (id other : OwnerId) :
    (restoreOwner scene (id, source.owner? id)).owner? other =
      if other = id then source.owner? other else scene.owner? other := by
  by_cases same : other = id
  · subst same
    rw [if_pos rfl]
    cases found : source.owner? other with
    | none => simp [restoreOwner]
    | some owner => simp [restoreOwner, source.id_of_owner? found]
  · rw [if_neg same]
    cases found : source.owner? id with
    | none => simp [restoreOwner, Ne.symm same]
    | some owner => simp [restoreOwner, source.id_of_owner? found, Ne.symm same]

theorem root_restoreOwner (scene : Scene) (item : OwnerId × Option Owner) :
    (restoreOwner scene item).root = scene.root := by
  obtain ⟨id, _ | owner⟩ := item <;> rfl

/-- Putting owners back one after the other puts them all back. -/
theorem owner?_foldl_restoreOwner
    (scene source : Scene)
    (ids : List OwnerId)
    (other : OwnerId) :
    ((ids.map fun id => (id, source.owner? id)).foldl restoreOwner scene).owner?
        other =
      if other ∈ ids then source.owner? other else scene.owner? other := by
  induction ids generalizing scene with
  | nil => simp
  | cons id rest inductionHypothesis =>
      rw [List.map_cons, List.foldl_cons, inductionHypothesis,
        owner?_restoreOwner]
      by_cases same : other = id
      · simp [same]
      · simp [same]

theorem root_foldl_restoreOwner
    (scene : Scene)
    (items : List (OwnerId × Option Owner)) :
    (items.foldl restoreOwner scene).root = scene.root := by
  induction items generalizing scene with
  | nil => rfl
  | cons item rest inductionHypothesis =>
      rw [List.foldl_cons, inductionHypothesis, root_restoreOwner]

/-- A checkpoint puts back a scene from any other one that differs only in the
remembered owners and the lists. -/
theorem restore_capture
    {touched : OwnerSet}
    {scene other : Scene}
    (same : scene.SameOutside touched other) :
    (capture scene touched).restore other = scene := by
  refine Scene.ext_of_owners ?_ ?_ rfl rfl rfl
  · intro id
    change (List.foldl restoreOwner other _).owner? id = _
    rw [capture, owner?_foldl_restoreOwner]
    split
    · rfl
    · next outside =>
        exact same.owners id (mt Std.ExtTreeSet.mem_toList.2 outside)
  · change (List.foldl restoreOwner other _).root = _
    rw [root_foldl_restoreOwner]
    exact same.root

end Checkpoint

/-! ## Changes made piece by piece -/

/-- A document that differs from an earlier one only in some owners, the lists,
and numbers that were given out since. -/
structure Document.Touches (touched : OwnerSet) (before after : Document) :
    Prop where
  rest : after = { before with scene := after.scene, nextId := after.nextId }
  later : before.nextId ≤ after.nextId
  same : before.scene.SameOutside touched after.scene

namespace Document.Touches

variable {touched : OwnerSet} {first second third : Document}

theorem refl (touched : OwnerSet) (document : Document) :
    document.Touches touched document :=
  ⟨rfl, Nat.le_refl _, .refl touched document.scene⟩

theorem trans
    (touches : first.Touches touched second)
    (onward : second.Touches touched third) :
    first.Touches touched third := by
  refine ⟨?_, touches.later.trans onward.later, touches.same.trans onward.same⟩
  rw [onward.rest, touches.rest]

/-- A further change of the scene. -/
theorem withScene
    (touches : first.Touches touched second)
    {scene : Scene}
    (same : second.scene.SameOutside touched scene) :
    first.Touches touched { second with scene } :=
  touches.trans ⟨rfl, Nat.le_refl _, same⟩

/-- Without numbers given out, only the scene differs. -/
theorem only
    (touches : first.Touches touched second)
    (numbers : second.nextId = first.nextId) :
    second = { first with scene := second.scene } := by
  rw [touches.rest, numbers]

theorem above (touches : first.Touches touched second) (id : OwnerId) :
    first.Touches touched (second.above id) :=
  touches.trans ⟨rfl, Nat.le_max_left _ _, .refl touched second.scene⟩

end Document.Touches

namespace Change

variable {α β : Type} {document : Document}
  {good : α → Document → Prop} {bad : Document → Prop}

/-- A change of a document ends well with a result and a state that are good, or
fails in a state that is bad at worst. -/
def Ends
    (change : Change α)
    (document : Document)
    (good : α → Document → Prop)
    (bad : Document → Prop) : Prop :=
  match change document with
  | .ok result final => good result final
  | .error _ final => bad final

namespace Ends

theorem bind
    {first : Change β}
    {next : β → Change α}
    (ends : first.Ends document
      (fun result final => (next result).Ends final good bad) bad) :
    (first >>= next).Ends document good bad := by
  change match EStateM.bind first next document with
    | .ok result final => good result final
    | .error _ final => bad final
  unfold Ends at ends
  unfold EStateM.bind
  cases outcome : first document <;> rw [outcome] at ends <;> exact ends

theorem mono
    {change : Change α}
    {good' : α → Document → Prop}
    (ends : change.Ends document good bad)
    (weaker : ∀ result final, good result final → good' result final) :
    change.Ends document good' bad := by
  unfold Ends at *
  split <;> simp_all

/-- A change may be said to fail in a worse state than it does. -/
theorem worsen
    {change : Change α}
    {bad' : Document → Prop}
    (ends : change.Ends document good bad)
    (worse : ∀ final, bad final → bad' final) :
    change.Ends document good bad' := by
  unfold Ends at *
  split <;> simp_all

/-- What is known of a change twice is known together. -/
theorem and
    {change : Change α}
    {good' : α → Document → Prop}
    {bad' : Document → Prop}
    (ends : change.Ends document good bad)
    (also : change.Ends document good' bad') :
    change.Ends document
      (fun result final => good result final ∧ good' result final)
      (fun final => bad final ∧ bad' final) := by
  unfold Ends at *
  split <;> simp_all

theorem discard
    {change : Change β}
    {good : PUnit → Document → Prop}
    (ends : change.Ends document (fun _ final => good ⟨⟩ final) bad) :
    Ends (Functor.discard change) document good bad := by
  have mapped : Functor.discard change document =
      EStateM.map (Function.const β PUnit.unit) change document := rfl
  unfold Ends at *
  rw [mapped]
  unfold EStateM.map
  cases outcome : change document <;> rw [outcome] at ends <;> exact ends

theorem reserve
    {id : OwnerId}
    {good : Unit → Document → Prop}
    (isGood : good () (document.above id))
    (fails : bad document) :
    (Change.reserve id).Ends document good bad := by
  unfold Ends Change.reserve
  cases outcome : document.reserve id with
  | error fault => exact fails
  | ok reserved =>
      rw [(Document.reserve_eq_ok_iff.1 outcome).2]
      exact isGood

theorem scene
    {change : Scene → Scene}
    {good : Unit → Document → Prop}
    (isGood : good () { document with scene := change document.scene }) :
    (Change.scene change).Ends document good bad :=
  isGood

theorem attempt
    {change : Scene → Except Fault (Scene × α)}
    (ends : ∀ scene result, change document.scene = .ok (scene, result) →
      good result { document with scene })
    (fails : bad document) :
    (Change.attempt change).Ends document good bad := by
  unfold Ends Change.attempt
  cases outcome : change document.scene with
  | error fault => exact fails
  | ok pair => exact ends pair.1 pair.2 outcome

/-- A change of the scene that is known to work out. -/
theorem succeed
    {change : Scene → Except Fault (Scene × α)}
    {scene : Scene}
    {result : α}
    (done : change document.scene = .ok (scene, result))
    (isGood : good result { document with scene }) :
    (Change.attempt change).Ends document good bad := by
  unfold Ends Change.attempt
  rw [done]
  exact isGood

theorem consult
    {question : Scene → Except Fault α}
    (ends : ∀ result, question document.scene = .ok result →
      good result document)
    (fails : bad document) :
    (Change.consult question).Ends document good bad := by
  refine attempt ?_ fails
  intro scene result answer
  obtain ⟨value, asked, same⟩ := Attempt.map_eq_ok_iff.1 answer
  cases same
  exact ends result asked

theorem detach
    {id : OwnerId}
    {good : Slot → Document → Prop}
    (ends : ∀ scene slot, document.scene.detach id = .ok (scene, slot) →
      good slot { document with scene })
    (fails : bad document) :
    (Change.detach id).Ends document good bad :=
  attempt ends fails

theorem attach
    {id : OwnerId}
    {slot : Slot}
    {good : Unit → Document → Prop}
    (ends : ∀ scene, document.scene.attach id slot = .ok scene →
      good () { document with scene })
    (fails : bad document) :
    (Change.attach id slot).Ends document good bad := by
  refine attempt ?_ fails
  intro scene result done
  obtain ⟨attached, is_attached, same⟩ := Attempt.map_eq_ok_iff.1 done
  cases same
  exact ends scene is_attached

theorem assign
    {reference : Reference}
    {value : Value}
    {good : Unit → Document → Prop}
    (ends : ∀ scene, document.scene.store reference.owner reference.property
        value = .ok scene →
      good () { document with scene })
    (fails : bad document) :
    (Change.assign reference value).Ends document good bad := by
  refine attempt ?_ fails
  intro scene result done
  obtain ⟨stored, is_stored, same⟩ := Attempt.map_eq_ok_iff.1 done
  cases same
  exact ends scene is_stored

/-- What every round of a loop keeps holds at its end. -/
theorem forM
    {body : β → Change PUnit}
    {invariant : List β → Document → Prop}
    (round : ∀ item rest middle, invariant (item :: rest) middle →
      (body item).Ends middle (fun _ final => invariant rest final) bad)
    {items : List β}
    (start : invariant items document) :
    (items.forM body).Ends document
      (fun _ final => invariant [] final) bad := by
  induction items generalizing document with
  | nil => exact start
  | cons item rest inductionHypothesis =>
      change (body item >>= fun _ => rest.forM body).Ends document _ bad
      refine bind ((round item rest document start).mono ?_)
      intro _ middle kept
      exact inductionHypothesis kept

/-- What every round of a loop keeps, even one that fails, is kept by the
loop. -/
theorem each
    {body : β → Change PUnit}
    {invariant : Document → Prop}
    {items : List β}
    (round : ∀ item ∈ items, ∀ middle, invariant middle →
      (body item).Ends middle (fun _ => invariant) invariant)
    (start : invariant document) :
    (items.forM body).Ends document (fun _ => invariant) invariant := by
  induction items generalizing document with
  | nil => exact start
  | cons item rest inductionHypothesis =>
      rw [List.forall_mem_cons] at round
      change (body item >>= fun _ => rest.forM body).Ends document _ _
      refine bind ((round.1 document start).mono ?_)
      intro _ middle kept
      exact inductionHypothesis round.2 kept

/-- A change that is made for the first time and does not fail ends well. -/
theorem first
    {κ : Type}
    {command : κ}
    {touched : OwnerSet}
    {change : Change Unit}
    {remember : Transition → κ}
    {good : Unit → Document → Prop}
    (ends : change.Ends document good bad)
    (changed : (Step.first command document touched change remember).result =
      .ok .changed) :
    good () (Step.first command document touched change remember).state := by
  unfold Ends at ends
  unfold Step.first Transition.record at changed ⊢
  cases outcome : change document with
  | error fault left =>
      rw [outcome] at changed
      cases changed
  | ok result final =>
      rw [outcome] at ends
      exact ends

/-- A change that cannot fail is made. -/
theorem result_first
    {κ : Type}
    {command : κ}
    {touched : OwnerSet}
    {change : Change Unit}
    {remember : Transition → κ}
    {good : Unit → Document → Prop}
    (ends : change.Ends document good fun _ => False) :
    (Step.first command document touched change remember).result =
      .ok .changed := by
  unfold Ends at ends
  unfold Step.first Transition.record
  cases outcome : change document with
  | error fault left =>
      rw [outcome] at ends
      cases ends
  | ok result final => rfl

end Ends

end Change

/-- A change that is made for the first time is remembered. -/
theorem Step.command_first
    {κ : Type}
    {command : κ}
    {document : Document}
    {touched : OwnerSet}
    {change : Change Unit}
    {remember : Transition → κ}
    (changed : (Step.first command document touched change remember).result =
      .ok .changed) :
    ∃ transition,
      (Step.first command document touched change remember).command =
      remember transition := by
  unfold Step.first at changed ⊢
  split at changed
  · exact ⟨_, rfl⟩
  · cases changed

/-- A change made piece by piece is lawful when every piece stays within the
touched owners and the last one leaves a well-formed document. -/
theorem Lawful.first
    {κ : Type}
    {apply : κ → Document → Step κ Document Outcome}
    {revert : κ → Document → Step κ Document Unit}
    {document : Document}
    {nextId : Nat}
    (later : document.nextId ≤ nextId)
    {touched : OwnerSet}
    {change : Change Unit}
    {command : κ}
    {remember : Transition → κ}
    (applies : ∀ transition again,
      apply (remember transition) again =
        .again (remember transition) again transition)
    (reverts : ∀ transition again,
      revert (remember transition) again =
        .back (remember transition) again (some transition))
    (ends : change.Ends { document with nextId }
      (fun _ final => { document with nextId }.Touches touched final ∧
        final.WellFormed)
      ({ document with nextId }.Touches touched)) :
    Lawful apply revert document
      (.first command { document with nextId } touched change remember) := by
  unfold Change.Ends at ends
  unfold Step.first Transition.record
  cases outcome : change { document with nextId } with
  | error fault left =>
      rw [outcome] at ends
      simp only
      rw [Checkpoint.restore_capture ends.same, ends.rest]
      exact failed command left.nextId (later.trans ends.later) fault
  | ok result final =>
      rw [outcome] at ends
      obtain ⟨touches, wellFormed⟩ := ends
      simp only
      have rest : final =
          { document with scene := final.scene, nextId := final.nextId } :=
        touches.rest
      rw [rest]
      refine changed _ final.scene final.nextId (later.trans touches.later)
        (rest ▸ wellFormed) ?_
      constructor
      · intro again same
        rw [reverts]
        simp only [Step.back, Transition.undo, Transition.between, same,
          Checkpoint.restore_capture touches.same]
      · intro again same
        rw [applies]
        simp only [Step.again, Transition.redo, Transition.between, same]
        rw [Checkpoint.restore_capture touches.same.symm]

end MotionScene
