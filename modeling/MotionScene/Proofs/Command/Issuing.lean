import MotionScene.Proofs.Command.Numbering

/-!
# Edits that add and remove owners

These edits are carried out piece by piece and remember the owners they touched,
absent ones included.  Adding reserves the numbers of the new owners.  Copying
and converting give numbers out, and register new owners under no other ones.
-/

namespace MotionScene

namespace Document

/-- A document with a scene that names no other owners than an earlier one, or
such with numbers that were given out before. -/
structure Keeps (before after : Document) : Prop where
  nextId : after.nextId = before.nextId
  names : after.scene.Names (OwnerId.Below before.nextId)

end Document

namespace Edit.Advances

variable {κ : Type} {view : κ → Edit} {command : κ} {document : Document}

/-- A remembered change that is made again. -/
theorem again
    (numbered : document.Numbered)
    (recorded : ∀ id ∈ (view command).recorded, id.Below document.nextId)
    {transition : Transition}
    (isRemembered : transition.named ⊆ (view command).remembered)
    (done : (view command).Done) :
    (view command).Advances document
      ((Step.again command document transition).map view) := by
  obtain ⟨addressed, remembered⟩ := List.forall_mem_append.1 recorded
  refine ⟨Nat.le_refl _, fun _ => rfl, ?_, rfl, fun _ => addressed, remembered,
    fun _ => done⟩
  refine Scene.Names.restore numbered fun id member => ?_
  exact remembered id (isRemembered (List.mem_append_right _ member))

/-- A change that is made for the first time, possibly after numbers were given
out. -/
theorem first
    {allocated : Document}
    (later : document.nextId ≤ allocated.nextId)
    (numbered : allocated.Numbered)
    {touched : OwnerSet}
    {change : Change Unit}
    {remember : Transition → κ}
    (request : ∀ transition,
      (view (remember transition)).addressed = (view command).addressed)
    (due : ¬(view command).Done)
    (done : ∀ transition, (view (remember transition)).Done)
    (remembered : ∀ id ∈ (view command).remembered, id.Below document.nextId)
    (remembers : ∀ transition, ∀ id ∈ (view (remember transition)).remembered,
      id ∈ transition.named ∨ id.Below allocated.nextId)
    (ends : change.Ends allocated
      (fun _ final => allocated.nextId ≤ final.nextId ∧ final.Numbered ∧
        (∀ id ∈ touched, id.Below final.nextId) ∧
        ∀ id ∈ (view command).addressed, id.Below final.nextId)
      (fun left => allocated.nextId ≤ left.nextId ∧
        ((Checkpoint.capture allocated.scene touched).restore left.scene).Names
          (OwnerId.Below left.nextId))) :
    (view command).Advances document
      ((Step.first command allocated touched change remember).map view) := by
  unfold Change.Ends at ends
  unfold Step.first Transition.record
  cases outcome : change allocated with
  | error fault left =>
      rw [outcome] at ends
      refine ⟨later.trans ends.1, fun isDone => absurd isDone due,
        ends.2, rfl, nofun, fun id member => ?_,
        fun isDone => isDone.resolve_left nofun⟩
      exact (remembered id member).mono (later.trans ends.1)
  | ok result final =>
      rw [outcome] at ends
      obtain ⟨laterStill, isNumbered, isTouched, addressed⟩ := ends
      have before :=
        (numbered.mono fun _ below => below.mono laterStill).capture isTouched
      have after := isNumbered.capture isTouched
      refine ⟨later.trans laterStill, fun isDone => absurd isDone due,
        isNumbered, request _, fun _ => addressed, ?_, fun _ => done _⟩
      intro id member
      rcases remembers _ id member with isNamed | below
      · exact List.forall_mem_append.2 ⟨before, after⟩ id isNamed
      · exact below.mono laterStill

/-- A change of known owners that is made for the first time and reserves no
numbers. -/
theorem first_of_keeps
    {allocated : Document}
    (later : document.nextId ≤ allocated.nextId)
    (numbered : allocated.Numbered)
    {touched : OwnerSet}
    (isTouched : ∀ id ∈ touched, id.Below allocated.nextId)
    {change : Change Unit}
    {remember : Transition → κ}
    (request : ∀ transition,
      (view (remember transition)).addressed = (view command).addressed)
    (due : ¬(view command).Done)
    (done : ∀ transition, (view (remember transition)).Done)
    (addressed : ∀ id ∈ (view command).addressed, id.Below allocated.nextId)
    (remembered : ∀ id ∈ (view command).remembered, id.Below document.nextId)
    (remembers : ∀ transition, ∀ id ∈ (view (remember transition)).remembered,
      id ∈ transition.named ∨ id.Below allocated.nextId)
    (ends : change.Ends allocated (fun _ => allocated.Keeps) allocated.Keeps) :
    (view command).Advances document
      ((Step.first command allocated touched change remember).map view) := by
  refine .first later numbered request due done remembered remembers
    ((ends.mono ?_).worsen ?_)
  · intro _ final keeps
    rw [Document.Numbered, keeps.nextId]
    exact ⟨Nat.le_refl _, keeps.names, isTouched, addressed⟩
  · intro left keeps
    rw [keeps.nextId]
    exact ⟨Nat.le_refl _, keeps.names.restore (numbered.capture isTouched)⟩

end Edit.Advances

namespace Document.Keeps

variable {document middle : Document}

/-- Storing references one after the other; those to an owner need its number to
be given out. -/
theorem assignAll
    (value : Value)
    (below : ∀ target, value.target? = some target →
      target.Below document.nextId)
    (references : List Reference)
    (keeps : document.Keeps middle) :
    (references.forM fun reference => Change.assign reference value).Ends middle
      (fun _ => document.Keeps) document.Keeps := by
  refine .each ?_ keeps
  intro reference _ middle keeps
  refine .assign (fun scene isStored => ⟨keeps.nextId, ?_⟩) keeps
  exact keeps.names.store isStored below

end Document.Keeps

/-! ## Adding -/

namespace AddOwners

variable {command : AddOwners} {document : Document}

/-- What holds while owners are placed and some remain.  Their references are
not checked yet. -/
structure Reserving
    (command : AddOwners)
    (document : Document)
    (rest : List NewOwner)
    (middle : Document) : Prop where
  touches : document.Touches command.touched middle
  names : middle.scene.Names fun id =>
    id.Below middle.nextId ∨ ∃ item ∈ command.items, id ∈ item.owner.targets
  known : ∀ id, middle.scene.contains id = true → id.Below middle.nextId
  placed : ∀ item ∈ command.items, item ∈ rest ∨
    Reparent.Held (OwnerId.Below middle.nextId) (item.owner.id, item.slot)
  listed : ∀ item ∈ rest, item ∈ command.items

theorem Reserving.start (numbered : document.Numbered) :
    Reserving command document command.items document where
  touches := .refl _ document
  names := numbered.mono fun _ => Or.inl
  known _ isKnown := numbered.known isKnown
  placed _ := Or.inl
  listed _ := id

theorem Reserving.attached
    {item : NewOwner}
    {rest : List NewOwner}
    {middle : Document}
    (reserving : Reserving command document (item :: rest) middle)
    (check : (middle.scene.insert (unlinked item.owner)).checkAttach
        item.owner.id item.slot =
      .ok ()) :
    Reserving command document rest
      { middle.above item.owner.id with
        scene := (middle.scene.insert (unlinked item.owner)).hung item.owner.id
          item.slot } := by
  have member := reserving.listed item List.mem_cons_self
  obtain ⟨touchedId, touchedHosts⟩ := mem_touched member
  have later : middle.nextId ≤ (middle.above item.owner.id).nextId :=
    Nat.le_max_left _ _
  have reserved : item.owner.id.Below (middle.above item.owner.id).nextId :=
    Nat.lt_of_lt_of_le (Nat.lt_succ_self _) (Nat.le_max_right _ _)
  have known :
      ∀ id, (middle.scene.insert (unlinked item.owner)).contains id = true →
      id.Below (middle.above item.owner.id).nextId := by
    intro id isKnown
    rw [Scene.contains, Scene.owner?_insert] at isKnown
    split at isKnown
    · next same => exact same ▸ reserved
    · exact (reserving.known id isKnown).mono later
  constructor
  case touches =>
    exact (reserving.touches.above item.owner.id).withScene
      ((Scene.SameOutside.insert (unlinked item.owner) touchedId).trans
        (.hung touchedId touchedHosts))
  case names =>
    have names : middle.scene.Names fun id =>
        id.Below (middle.above item.owner.id).nextId ∨
          ∃ item ∈ command.items, id ∈ item.owner.targets :=
      reserving.names.mono fun _ => Or.imp_left fun below => below.mono later
    refine ((names.insert ?_).attach (Scene.attach_eq_ok_iff.2 ⟨check, rfl⟩)).1
    refine Owner.forall_mem_named_iff.2 ⟨Or.inl reserved, by rintro _ ⟨⟩,
      List.forall_mem_nil _, List.forall_mem_nil _,
      fun target isTarget => Or.inr ⟨item, member, isTarget⟩⟩
  case known =>
    intro id isKnown
    rw [Scene.contains_eq_categoryOf,
      Scene.categoryOf_hung, ← Scene.contains_eq_categoryOf] at isKnown
    exact known id isKnown
  case placed =>
    intro other isOther
    rcases reserving.placed other isOther with isRest | held
    · rcases List.mem_cons.1 isRest with rfl | later
      · refine Or.inr ⟨reserved, fun host isHost => known host ?_⟩
        exact Scene.contains_of_categoryOf
          ((Scene.checkAttach_eq_ok_iff.1 check).2.1 host isHost)
      · exact Or.inl later
    · exact Or.inr
        ⟨held.1.mono later, fun host isHost => (held.2 host isHost).mono later⟩
  case listed =>
    exact fun other isRest =>
      reserving.listed other (List.mem_cons_of_mem item isRest)

/-- Once all references of the new owners lead somewhere, no number in the scene
is still to be given out. -/
theorem Reserving.numbered
    {middle : Document}
    (reserving : Reserving command document [] middle)
    (checked : checkReferences middle.scene command.items = .ok ()) :
    middle.Numbered ∧ ∀ id ∈ (Edit.addOwners command).addressed,
      id.Below middle.nextId := by
  have targets : ∀ item ∈ command.items, ∀ target ∈ item.owner.targets,
      target.Below middle.nextId := by
    intro item member target isTarget
    obtain ⟨property, isProperty, refers⟩ := Owner.mem_targets_iff.1 isTarget
    exact reserving.known target
      (contains_of_checkReferences checked member isProperty refers)
  constructor
  · refine reserving.names.mono fun id isAllowed => ?_
    rcases isAllowed with below | ⟨item, member, isTarget⟩
    · exact below
    · exact targets item member id isTarget
  · simp only [Edit.addressed, List.forall_mem_flatMap, List.forall_mem_cons,
      List.forall_mem_append, Option.mem_toList]
    intro item member
    rcases reserving.placed item member with isRest | held
    · cases isRest
    · exact ⟨held.1, held.2, targets item member⟩

/-- An addition touches the new owners and those they are attached to. -/
theorem below_of_touched
    {bound : Nat}
    (addressed : ∀ id ∈ (Edit.addOwners command).addressed, id.Below bound) :
    ∀ id ∈ command.touched, id.Below bound := by
  intro id isTouched
  simp only [touched, Std.ExtTreeSet.mem_ofList, List.contains_eq_mem,
    decide_eq_true_eq, List.mem_append, ids, List.mem_map,
    List.mem_filterMap] at isTouched
  simp only [Edit.addressed, List.forall_mem_flatMap, List.forall_mem_cons,
    List.forall_mem_append, Option.mem_toList] at addressed
  rcases isTouched with ⟨item, member, rfl⟩ | ⟨item, member, isHost⟩
  · exact (addressed item member).1
  · exact (addressed item member).2.1 id isHost

theorem advances
    (numbered : document.Numbered)
    (remembered : ∀ id ∈ (Edit.addOwners command).remembered,
      id.Below document.nextId)
    (settled : command.transition = none ∨
      ∀ id ∈ (Edit.addOwners command).recorded, id.Below document.nextId) :
    (Edit.addOwners command).Advances document
      ((Edit.addOwners command).apply document) := by
  cases isTransition : command.transition with
  | some transition =>
      rw [Edit.apply, apply, isTransition]
      refine .again numbered
        (settled.resolve_left (by simp [isTransition])) ?_ ?_
      · simp [Edit.remembered, isTransition]
      · simp [Edit.Done, isTransition]
  | none =>
      rw [Edit.apply]
      rcases apply_cases isTransition document with
        isIdle | ⟨fault, isFailed⟩ | ⟨_, isFirst⟩
      · rw [isIdle]
        exact .idle numbered remembered
      · rw [isFailed]
        exact .failed numbered remembered
      · rw [isFirst]
        have round : ∀ item rest middle,
            Reserving command document (item :: rest) middle →
            (place item).Ends middle
              (fun _ final => Reserving command document rest final)
              (document.Touches command.touched) := by
          intro item rest middle reserving
          have touchedId :=
            (mem_touched (reserving.listed item List.mem_cons_self)).1
          exact ends_place reserving.attached
            ((reserving.touches.above item.owner.id).withScene
              (.insert _ touchedId))
            reserving.touches
        have restored : ∀ left, document.Touches command.touched left →
            document.nextId ≤ left.nextId ∧
              ((Checkpoint.capture document.scene command.touched).restore
                left.scene).Names (OwnerId.Below left.nextId) := by
          intro left touches
          rw [Checkpoint.restore_capture touches.same]
          exact ⟨touches.later,
            numbered.mono fun _ below => below.mono touches.later⟩
        refine .first (Nat.le_refl _) numbered (fun _ => rfl) ?_
          (fun _ => rfl) remembered ?_ ?_
        · simp [Edit.Done, isTransition]
        · intro transition id member
          simpa [Edit.remembered] using Or.inl member
        · refine .worsen
            (.bind ((Change.Ends.forM round (Reserving.start numbered)).mono
              ?_)) restored
          intro _ middle reserving
          refine .consult (fun _ checked => ?_) reserving.touches
          obtain ⟨isNumbered, addressed⟩ := reserving.numbered checked
          exact ⟨reserving.touches.later, isNumbered,
            below_of_touched addressed, addressed⟩

end AddOwners

/-! ## Removing -/

namespace RemoveOwners

variable {command : RemoveOwners} {document : Document} {scene : Scene}
  {allowed : OwnerId → Prop}

theorem names_eraseAll (names : scene.Names allowed) (ids : OwnerSet) :
    (eraseAll scene ids).Names allowed := by
  have erased : ∀ gone : List OwnerId,
      (gone.foldl Scene.erase scene).Names allowed := by
    intro gone
    induction gone generalizing scene with
    | nil => exact names
    | cons id rest inductionHypothesis =>
        exact inductionHypothesis (names.erase id)
  have list := erased ids.toList
  refine ⟨list.owners, list.styles, list.tools, fun id member => ?_⟩
  exact names.selection id (Std.ExtTreeSet.mem_of_mem_filter member)

theorem keeps_removeAll
    (numbered : document.Numbered)
    (references : List Reference)
    (top : List OwnerId)
    (closure : OwnerSet) :
    (removeAll references top closure).Ends document
      (fun _ => document.Keeps) document.Keeps := by
  refine .bind
    ((Document.Keeps.assignAll (.reference none) nofun references
      ⟨rfl, numbered⟩).mono ?_)
  intro _ cleared keeps
  refine .bind (.mono (.each ?_ keeps) ?_)
  · intro id _ middle keeps
    refine .discard (.detach (fun scene slot isDetached => ?_) keeps)
    exact ⟨keeps.nextId, (keeps.names.detach isDetached).1⟩
  · intro _ middle keeps
    exact .scene ⟨keeps.nextId, names_eraseAll keeps.names closure⟩

/-- A removal touches only owners that the scene names. -/
theorem allowed_of_touched
    (names : scene.Names allowed)
    {top : List OwnerId}
    (isAllowed : ∀ id ∈ top, allowed id) :
    ∀ id ∈ touched scene top (scene.removalClosure top)
      (Scene.holdingOwners (scene.holdersOf (scene.removalClosure top))),
      allowed id := by
  intro id member
  rw [mem_touched] at member
  rcases member with (inClosure | isHolder) | ⟨root, _, step⟩
  · simp only [Scene.removalClosure, Std.ExtTreeSet.mem_ofList,
      List.contains_eq_mem, decide_eq_true_eq, List.mem_flatMap] at inClosure
    obtain ⟨root, isRoot, isBeneath⟩ := inClosure
    exact names.subtree (isAllowed root isRoot) id isBeneath
  · simp only [Scene.holdingOwners, Std.ExtTreeSet.mem_ofList,
      List.contains_eq_mem, decide_eq_true_eq, List.mem_map] at isHolder
    obtain ⟨reference, isReference, rfl⟩ := isHolder
    exact names.holdersOf _ reference isReference
  · exact names.parent step

theorem advances
    (numbered : document.Numbered)
    (remembered : ∀ id ∈ (Edit.removeOwners command).remembered,
      id.Below document.nextId)
    (settled : command.transition = none ∨
      ∀ id ∈ (Edit.removeOwners command).recorded, id.Below document.nextId) :
    (Edit.removeOwners command).Advances document
      ((Edit.removeOwners command).apply document) := by
  cases isTransition : command.transition with
  | some transition =>
      rw [Edit.apply, apply, isTransition]
      refine .again numbered
        (settled.resolve_left (by simp [isTransition])) ?_ ?_
      · simp [Edit.remembered, isTransition]
      · simp [Edit.Done, isTransition]
  | none =>
      rw [Edit.apply, apply, isTransition]
      simp only
      split
      · exact .failed numbered remembered
      · next allKnown =>
        split
        · exact .failed numbered remembered
        · split
          · exact .idle numbered remembered
          · unfold removeTop
            simp only
            split
            · exact .failed numbered remembered
            · have roots : ∀ id ∈ command.roots, id.Below document.nextId := by
                intro id member
                exact numbered.known
                  (by simpa using List.find?_eq_none.1 allKnown id member)
              refine .first_of_keeps (Nat.le_refl _) numbered
                (allowed_of_touched numbered (numbered.topLevel command.roots))
                (fun _ => rfl) ?_
                (fun _ => rfl) roots remembered ?_
                (keeps_removeAll numbered _ _ _)
              · simp [Edit.Done, isTransition]
              · intro transition id member
                simpa [Edit.remembered] using Or.inl member

end RemoveOwners

/-! ## Copying -/

namespace CopyObjects

variable {command : CopyObjects} {document : Document} {scene : Scene}
  {allowed : OwnerId → Prop} {renumbering : Renumbering}

theorem allowed_image
    (isAllowed : ∀ id new : OwnerId, renumbering[id]? = some new → allowed new)
    {id : OwnerId}
    (original : allowed id) :
    allowed (renumbering.image id) := by
  cases found : renumbering[id]? with
  | some new =>
      rw [Renumbering.image_of_some found]
      exact isAllowed id new found
  | none =>
      rw [Renumbering.image_of_none found]
      exact original

/-- A copy names the copies of what the original names, or the same. -/
theorem allowed_of_copy
    (isAllowed : ∀ id new : OwnerId, renumbering[id]? = some new → allowed new)
    {owner : Owner}
    (named : ∀ id ∈ owner.named, allowed id) :
    ∀ id ∈ (renumbering.owner owner).named, allowed id := by
  obtain ⟨self, _, children, tags, targets⟩ :=
    Owner.forall_mem_named_iff.1 named
  refine Owner.forall_mem_named_iff.2
    ⟨allowed_image isAllowed self, ?_, ?_, ?_, ?_⟩
  · intro newParent step
    obtain ⟨parent, _, found⟩ := Option.bind_eq_some_iff.1 step
    exact isAllowed parent newParent found
  · exact List.forall_mem_map.2 fun id member =>
      allowed_image isAllowed (children id member)
  · exact List.forall_mem_map.2 fun id member =>
      allowed_image isAllowed (tags id member)
  · intro newTarget member
    obtain ⟨property, isProperty, refers⟩ := Owner.mem_targets_iff.1 member
    obtain ⟨original, isOriginal, rfl⟩ := List.mem_map.1 isProperty
    rw [Renumbering.target?_property] at refers
    obtain ⟨target, refersOriginally, rfl⟩ := Option.map_eq_some_iff.1 refers
    exact allowed_image isAllowed
      (targets target
        (Owner.mem_targets_iff.2 ⟨original, isOriginal, refersOriginally⟩))

theorem names_foldl_insert
    (names : scene.Names allowed)
    {owners : List Owner}
    (named : ∀ owner ∈ owners, ∀ id ∈ owner.named, allowed id) :
    (owners.foldl Scene.insert scene).Names allowed := by
  induction owners generalizing scene with
  | nil => exact names
  | cons owner rest inductionHypothesis =>
      rw [List.forall_mem_cons] at named
      exact inductionHypothesis (names.insert named.1) named.2

theorem keeps_attachAll
    {middle : Document}
    (keeps : document.Keeps middle)
    (parent : OwnerId)
    (index : Nat)
    (ids : List OwnerId) :
    (attachAll parent index ids).Ends middle
      (fun _ => document.Keeps) document.Keeps := by
  induction ids generalizing middle index with
  | nil => exact keeps
  | cons id rest inductionHypothesis =>
      refine .bind (.attach (fun scene isAttached => ?_) keeps)
      have attached : document.Keeps { middle with scene } :=
        ⟨keeps.nextId, (keeps.names.attach isAttached).1⟩
      exact inductionHypothesis attached (index + 1)

/-- New numbers are consecutive, starting with the next one. -/
theorem number_of_consecutive
    {start : Nat}
    {ids : List OwnerId}
    {id new : OwnerId}
    (found : (Renumbering.consecutive start ids)[id]? = some new) :
    start ≤ new.number ∧ new.Below (start + ids.length) := by
  obtain ⟨above, entry⟩ := Renumbering.position_of_consecutive found
  obtain ⟨bound, _⟩ := List.getElem?_eq_some_iff.1 entry
  refine ⟨above, ?_⟩
  unfold OwnerId.Below
  omega

/-- Copies are made of known objects under a known object. -/
theorem known_of_check (checked : command.check scene = .ok ()) :
    scene.contains command.parent = true ∧ ∀ id ∈ command.sources,
      scene.contains id = true := by
  rw [check] at checked
  obtain ⟨parent, found, checked⟩ := Attempt.bind_eq_ok_iff.1 checked
  have known : scene.contains command.parent = true := by
    rw [Scene.contains, Scene.owner_eq_ok_iff.1 found]
    rfl
  refine ⟨known, fun id member => ?_⟩
  cases isObject : parent.kind.isObject with
  | false => simp [isObject] at checked
  | true =>
      simp only [isObject, Bool.not_true, Bool.false_eq_true, if_false]
        at checked
      split at checked
      · cases checked
      · next allObjects =>
        have isOf : scene.isOf .object id = true := by
          simpa using List.find?_eq_none.1 allObjects id member
        exact Scene.contains_of_categoryOf (Scene.isOf_eq_true_iff.1 isOf)

theorem advances_copyTop
    (numbered : document.Numbered)
    (remembered : ∀ id ∈ (Edit.copyObjects command).remembered,
      id.Below document.nextId)
    (addressed : ∀ id ∈ (Edit.copyObjects command).addressed,
      id.Below document.nextId)
    (unused : command.transition = none)
    (top : List OwnerId) :
    (Edit.copyObjects command).Advances document
      ((command.copyTop document top).map Edit.copyObjects) := by
  have later : document.nextId ≤ document.nextId +
      (top.flatMap document.scene.subtree).length :=
    Nat.le_add_right _ _
  have isNumbered : { document with
      nextId := document.nextId +
        (top.flatMap document.scene.subtree).length }.Numbered :=
    numbered.mono fun _ below => below.mono later
  unfold copyTop
  simp only
  generalize isRenumbering : Renumbering.consecutive document.nextId
    (top.flatMap document.scene.subtree) = renumbering
  have issued : ∀ id new : OwnerId, renumbering[id]? = some new →
      new.Below
        (document.nextId + (top.flatMap document.scene.subtree).length) := by
    intro id new found
    rw [← isRenumbering] at found
    exact (number_of_consecutive found).2
  split
  · exact .failed numbered remembered
  next allocated isAllocated =>
  obtain ⟨_, rfl⟩ := Document.allocateMany_eq_ok_iff.1 isAllocated
  refine .first_of_keeps later isNumbered ?_ (fun _ => rfl) ?_ (fun _ => rfl)
    (fun id member => (addressed id member).mono later) remembered ?_ ?_
  · intro id member
    simp only [Std.ExtTreeSet.mem_ofList, List.contains_eq_mem,
      decide_eq_true_eq, List.mem_cons, List.mem_map, Prod.exists,
      exists_eq_right, Std.ExtTreeMap.mem_toList_iff_getElem?_eq_some] at member
    rcases member with rfl | ⟨source, found⟩
    · exact (addressed _ List.mem_cons_self).mono later
    · exact issued source id found
  · simp [Edit.Done, unused]
  · intro transition id member
    simp only [Edit.remembered, List.mem_append, List.mem_filterMap,
      Option.toList_some, List.flatMap_singleton] at member
    rcases member with ⟨source, _, found⟩ | isNamed
    · exact Or.inr (issued source id found)
    · exact Or.inl isNamed
  · have copied : (((renumbering.keys.filterMap document.scene.owner?).map
        renumbering.owner).foldl Scene.insert document.scene).Names
          (OwnerId.Below
            (document.nextId +
              (top.flatMap document.scene.subtree).length)) := by
      refine names_foldl_insert isNumbered fun copy member => ?_
      obtain ⟨source, new, owner, _, known, rfl⟩ := mem_copies.1 member
      exact allowed_of_copy issued (isNumbered.owners source owner known)
    refine .bind (.scene ?_)
    apply keeps_attachAll
    exact ⟨rfl, copied⟩

theorem advances
    (numbered : document.Numbered)
    (remembered : ∀ id ∈ (Edit.copyObjects command).remembered,
      id.Below document.nextId)
    (settled : command.transition = none ∨
      ∀ id ∈ (Edit.copyObjects command).recorded, id.Below document.nextId) :
    (Edit.copyObjects command).Advances document
      ((Edit.copyObjects command).apply document) := by
  cases isTransition : command.transition with
  | some transition =>
      rw [Edit.apply, apply, isTransition]
      refine .again numbered
        (settled.resolve_left (by simp [isTransition])) ?_ ?_
      · simp [Edit.remembered, isTransition]
      · simp [Edit.Done, isTransition]
  | none =>
      rw [Edit.apply, apply, isTransition]
      cases checked : command.check document.scene with
      | error fault => exact .failed numbered remembered
      | ok _ =>
          simp only
          split
          · exact .idle numbered remembered
          · obtain ⟨parent, sources⟩ := known_of_check checked
            refine advances_copyTop numbered remembered
              (List.forall_mem_cons.2 ?_) isTransition _
            exact ⟨numbered.known parent,
              fun id member => numbered.known (sources id member)⟩

end CopyObjects

/-! ## Converting -/

namespace Convert

variable {command : Convert} {document : Document} {scene : Scene}
  {allowed : OwnerId → Prop}

/-- A path that replaces an object has no links yet, and refers to what the
object refers to. -/
theorem allowed_of_pathFor
    {source path : Owner}
    {id : OwnerId}
    (built : pathFor document source id = .ok path)
    (isAllowed : allowed id)
    (named : ∀ id ∈ source.named, allowed id) :
    ∀ id ∈ path.named, allowed id := by
  unfold pathFor at built
  obtain ⟨geometry, _, same⟩ := Attempt.bind_eq_ok_iff.1 built
  cases same
  refine Owner.forall_mem_named_iff.2 ⟨isAllowed, nofun, List.forall_mem_nil _,
    List.forall_mem_nil _, fun target member => ?_⟩
  obtain ⟨property, isProperty, refers⟩ := Owner.mem_targets_iff.1 member
  obtain ⟨original, isOriginal, rfl⟩ := List.mem_map.1 isProperty
  have silent :=
    (Owner.pristine_of_default
      (.object .path) document.paths original isOriginal).2
  have targets := (Owner.forall_mem_named_iff.1 named).2.2.2.2
  unfold inherit at refers
  split at refers
  · next inherited found =>
    split at refers
    · exact targets target
        (Owner.mem_targets_iff.2
          ⟨inherited, List.mem_of_find?_eq_some found, refers⟩)
    · rw [silent] at refers
      cases refers
  · rw [silent] at refers
    cases refers

/-- The new paths name no number that is still to be given out. -/
theorem Drafts.named
    {ids : List OwnerId}
    {last : Document}
    {pairs : List (OwnerId × Owner)}
    (drafts : Drafts document ids last pairs)
    (numbered : document.Numbered) :
    ∀ pair ∈ pairs, ∀ id ∈ pair.2.named, id.Below last.nextId := by
  intro pair member
  obtain ⟨owner, isOwner, built⟩ := drafts.built pair member
  refine allowed_of_pathFor built
    (drafts.fresh member).2 fun other isNamed => ?_
  exact (numbered.owners pair.1 owner isOwner other isNamed).mono drafts.later

theorem keeps_replaceOne
    {middle : Document}
    (keeps : document.Keeps middle)
    (source : OwnerId)
    {path : Owner}
    (named : ∀ id ∈ path.named, id.Below document.nextId) :
    (replaceOne source path).Ends middle
      (fun _ => document.Keeps) document.Keeps := by
  obtain ⟨self, parent, _, _, targets⟩ := Owner.forall_mem_named_iff.1 named
  refine .bind (.detach (fun scene slot isDetached => ?_) keeps)
  have detached : document.Keeps { middle with scene } :=
    ⟨keeps.nextId, (keeps.names.detach isDetached).1⟩
  refine .bind (.consult (fun content isContent => ?_) detached)
  obtain ⟨_, _, children, tags, _⟩ := Owner.forall_mem_named_iff.1
    (detached.names.owners source content (Scene.owner_eq_ok_iff.1 isContent))
  refine .bind
    (.scene (.bind (.mono (.each (fun id _ middle keeps => ?_) ?_) ?_)))
  · refine .bind (.consult (fun _ _ => .scene ⟨keeps.nextId, ?_⟩) keeps)
    refine keeps.names.setParent id fun host isHost => ?_
    cases isHost
    exact self
  · refine ⟨keeps.nextId, detached.names.modify fun owner isNamed => ?_⟩
    rw [Owner.forall_mem_named_iff] at isNamed ⊢
    exact ⟨isNamed.1, isNamed.2.1, List.forall_mem_nil _, List.forall_mem_nil _,
      isNamed.2.2.2.2⟩
  · intro _ handed keeps
    have inserted : (handed.scene.insert
        { path with children := content.children, tags := content.tags }).Names
          (OwnerId.Below document.nextId) :=
      keeps.names.insert
        (Owner.forall_mem_named_iff.2 ⟨self, parent, children, tags, targets⟩)
    refine .bind
      (.scene (.bind
        (.attach (fun attached isAttached => ?_) ⟨keeps.nextId, inserted⟩)))
    have hung : document.Keeps { handed with scene := attached } :=
      ⟨keeps.nextId, (inserted.attach isAttached).1⟩
    refine .bind (.consult (fun holders _ => .bind (.mono
      (hung.assignAll (.reference (some path.id)) ?_ holders) ?_)) hung)
    · rintro target ⟨⟩
      exact self
    · intro _ redirected keeps
      refine .scene ⟨keeps.nextId, Scene.Names.erase ?_ source⟩
      refine ⟨keeps.names.owners, keeps.names.styles, keeps.names.tools,
        fun id member => ?_⟩
      simp only [reselect] at member
      split at member
      · rw [Std.ExtTreeSet.mem_insert] at member
        rcases member with same | kept
        · exact Std.LawfulEqOrd.eq_of_compare same ▸ self
        · exact keeps.names.selection id (Std.ExtTreeSet.mem_of_mem_erase kept)
      · exact keeps.names.selection id member

/-- A conversion touches only owners that the scene names. -/
theorem allowed_of_touchedBy
    (names : scene.Names allowed)
    {id : OwnerId}
    (isAllowed : allowed id) :
    ∀ other ∈ touchedBy scene id, allowed other := by
  unfold touchedBy
  split
  · next owner found =>
    obtain ⟨_, parent, children, tags, _⟩ :=
      Owner.forall_mem_named_iff.1 (names.owners id owner found)
    simp only [List.cons_append, List.forall_mem_cons, List.forall_mem_append,
      Option.mem_toList, List.forall_mem_map]
    exact ⟨isAllowed, ⟨⟨parent, children⟩, tags⟩, names.holdersOf _⟩
  · exact List.forall_mem_singleton.2 isAllowed

theorem advances_convertAll
    (numbered : document.Numbered)
    (remembered : ∀ id ∈ (Edit.convert command).remembered,
      id.Below document.nextId)
    (unused : command.transition = none)
    {sources : List OwnerId}
    (known : ∀ id ∈ sources, id.Below document.nextId) :
    (Edit.convert command).Advances document
      ((command.convertAll document sources).map Edit.convert) := by
  obtain ⟨count, counted⟩ := exists_counted document sources
  have later : document.nextId ≤ (document.counted count).nextId :=
    Nat.le_add_right _ _
  have isNumbered : (document.counted count).Numbered :=
    numbered.mono fun _ below => below.mono later
  have due : ¬(Edit.convert command).Done := by simp [Edit.Done, unused]
  rw [convertAll]
  rcases outcome : pathsFor document sources with ⟨last, fault | pairs⟩
  all_goals
    rw [outcome] at counted
    obtain rfl : last = document.counted count := counted
  · exact ⟨later, fun isDone => absurd isDone due, isNumbered, rfl, nofun,
      fun id member => (remembered id member).mono later,
      fun isDone => absurd (isDone.resolve_left nofun) due⟩
  · have drafts := drafts_of_pathsFor outcome
    have named := drafts.named numbered
    have self := fun pair member =>
      (Owner.forall_mem_named_iff.1 (named pair member)).1
    have isKnown : ∀ pair ∈ pairs,
        pair.1.Below (document.counted count).nextId := by
      intro pair member
      exact (known pair.1 (drafts.sources ▸ List.mem_map_of_mem member)).mono
        later
    refine .first_of_keeps later isNumbered ?_ (fun _ => rfl) due (fun _ => rfl)
      (List.forall_mem_nil _) remembered ?_ ?_
    · intro id member
      simp only [Std.ExtTreeSet.mem_ofList, List.contains_eq_mem,
        decide_eq_true_eq, List.mem_append, List.mem_flatMap,
        List.mem_map] at member
      rcases member with
        ⟨source, isSource, isTouched⟩ | ⟨_, ⟨pair, isPair, rfl⟩, rfl⟩
      · exact allowed_of_touchedBy isNumbered
          ((known source isSource).mono later) id isTouched
      · exact self pair isPair
    · intro transition id member
      simp only [Edit.remembered, List.mem_append, List.mem_flatMap,
        List.mem_map, Option.toList_some, List.flatMap_singleton] at member
      rcases member with ⟨_, ⟨pair, isPair, rfl⟩, isEither⟩ | isNamed
      · simp only [List.mem_cons, List.not_mem_nil, or_false] at isEither
        rcases isEither with rfl | rfl
        · exact Or.inr (isKnown pair isPair)
        · exact Or.inr (self pair isPair)
      · exact Or.inl isNamed
    · refine .each (fun pair isPair middle keeps => ?_) ⟨rfl, isNumbered⟩
      exact keeps_replaceOne keeps pair.1 (named pair isPair)

theorem advances
    (numbered : document.Numbered)
    (remembered : ∀ id ∈ (Edit.convert command).remembered,
      id.Below document.nextId)
    (settled : command.transition = none ∨
      ∀ id ∈ (Edit.convert command).recorded, id.Below document.nextId) :
    (Edit.convert command).Advances document
      ((Edit.convert command).apply document) := by
  cases isTransition : command.transition with
  | some transition =>
      rw [Edit.apply, apply, isTransition]
      refine .again numbered
        (settled.resolve_left (by simp [isTransition])) ?_ ?_
      · simp [Edit.remembered, isTransition]
      · simp [Edit.Done, isTransition]
  | none =>
      rw [Edit.apply, apply, isTransition]
      simp only
      split
      · exact .idle numbered remembered
      · refine advances_convertAll numbered remembered isTransition
          fun id member => ?_
        exact numbered.topLevel command.targets id
          (List.mem_of_mem_filter member)

end Convert
end MotionScene
