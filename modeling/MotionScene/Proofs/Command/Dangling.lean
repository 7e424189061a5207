import MotionScene.Proofs.Command.Clearing
import MotionScene.Proofs.Command.Removal
import MotionScene.Proofs.Document.Restoring

/-!
# References that a removal leaves behind

Nothing forbids a loaded owner to have several properties of one name.  A
removal clears the first of them, even where a later one refers to what goes.
So references are left dangling exactly by properties that are hidden behind
another one of their name.
-/

namespace MotionScene

/-- A property that comes after another one of the same name, so that the name
does not lead to it. -/
def Owner.Hidden (owner : Owner) (property : Property) : Prop :=
  ∃ before after, owner.properties = before ++ property :: after ∧
    property.name ∈ before.map Property.name

theorem Owner.Hidden.mem
    {owner : Owner}
    {property : Property}
    (hidden : owner.Hidden property) :
    property ∈ owner.properties := by
  obtain ⟨before, after, split, _⟩ := hidden
  rw [split]
  exact List.mem_append_right before List.mem_cons_self

namespace Scene

variable {scene : Scene}

/-- References are found in the content of owners. -/
theorem references_iff_content {reference : Reference} :
    reference ∈ scene.references ↔
      ∃ content property, scene.content? reference.owner = some content ∧
        property ∈ content.properties ∧ property.name = reference.property ∧
        property.value.target? = some reference.target := by
  rw [references_iff]
  simp only [content?_eq_some_iff]
  constructor
  · rintro ⟨owner, property, found, rest⟩
    exact ⟨owner.content, property, ⟨owner, found, rfl⟩, rest⟩
  · rintro ⟨_, property, ⟨owner, found, rfl⟩, rest⟩
    exact ⟨owner, property, found, rest⟩

/-- Another scene has the content of the owners outside a set, with the
references into the set cleared, and no others. -/
def Drops (scene : Scene) (targets : OwnerSet) (final : Scene) : Prop :=
  ∀ id, final.content? id =
    if id ∈ targets then none
    else (scene.clear (scene.holdersOf targets)).content? id

namespace Drops

variable {targets : OwnerSet} {final : Scene} {id : OwnerId}

theorem contains_iff (drops : scene.Drops targets final) :
    final.contains id = true ↔ scene.contains id = true ∧ id ∉ targets := by
  rw [contains_eq_content?, drops id]
  split
  · next isGone => simp [isGone]
  · next stays =>
    rw [← contains_eq_content?, contains_eq_categoryOf,
      (scene.sameLinks_clear _).category, ← contains_eq_categoryOf]
    simp [stays]

/-- What the owners that stay still refer to. -/
theorem mem_references_iff
    (drops : scene.Drops targets final)
    {reference : Reference} :
    reference ∈ final.references ↔
      reference.owner ∉ targets ∧ ∃ owner property,
        scene.owner? reference.owner = some owner ∧
        property ∈ Owner.clearFirst (fun name => ⟨reference.owner, name⟩ ∈
          (scene.holdersOf targets).map Reference.address) owner.properties ∧
        property.name = reference.property ∧
        property.value.target? = some reference.target := by
  rw [references_iff_content, drops reference.owner]
  split
  · next isGone => simp [isGone]
  · next stays =>
    rw [content?, owner?_clear]
    cases scene.owner? reference.owner with
    | none => simp
    | some owner => simp [Owner.content, stays]

/-- They refer to nothing that they did not refer to before. -/
theorem mem_references_of_mem
    (drops : scene.Drops targets final)
    {reference : Reference}
    (listed : reference ∈ final.references) :
    reference ∈ scene.references := by
  obtain ⟨_, owner, property, found, member, named, refers⟩ :=
    drops.mem_references_iff.1 listed
  obtain ⟨before, after, split, _⟩ := (Owner.mem_clearFirst_iff refers).1 member
  refine references_iff.2 ⟨owner, property, found, ?_, named, refers⟩
  rw [split]
  exact List.mem_append_right before List.mem_cons_self

/-- They refer to what is gone only by hidden properties. -/
theorem mem_references_iff_hidden
    (drops : scene.Drops targets final)
    {reference : Reference}
    (inside : reference.target ∈ targets) :
    reference ∈ final.references ↔
      reference.owner ∉ targets ∧ ∃ owner property,
        scene.owner? reference.owner = some owner ∧
        owner.Hidden property ∧ property.name = reference.property ∧
        property.value.target? = some reference.target := by
  constructor
  · intro listed
    obtain ⟨stays, owner, property, found, member, named, refers⟩ :=
      drops.mem_references_iff.1 listed
    obtain ⟨before, after, split, shadowed⟩ :=
      (Owner.mem_clearFirst_iff refers).1 member
    refine ⟨stays, owner, property, found, ⟨before, after, split, shadowed ?_⟩,
      named, refers⟩
    -- The reference was one of those to be cleared, so its name was asked for.
    have held :=
      mem_holdersOf.2 ⟨drops.mem_references_of_mem listed, inside, stays⟩
    rw [decide_eq_true_eq, named]
    exact List.mem_map_of_mem held
  · rintro ⟨stays, owner, property, found, ⟨before, after, split, shadowed⟩,
      named, refers⟩
    refine drops.mem_references_iff.2
      ⟨stays, owner, property, found, ?_, named, refers⟩
    exact (Owner.mem_clearFirst_iff refers).2
      ⟨before, after, split, fun _ => shadowed⟩

/-- Where no reference was dangling before, none is now if and only if hidden
properties refer only to owners that stay. -/
theorem no_dangling_iff
    (targetsKnown : ∀ reference ∈ scene.references,
      scene.contains reference.target = true)
    (drops : scene.Drops targets final) :
    (∀ reference ∈ final.references, final.contains reference.target = true) ↔
      ∀ id owner property target, scene.owner? id = some owner →
        final.contains id = true →
        owner.Hidden property → property.value.target? = some target →
        final.contains target = true := by
  constructor
  · intro clean id owner property target found remains hidden refers
    by_cases inside : target ∈ targets
    · refine clean ⟨id, property.name, target⟩
        ((drops.mem_references_iff_hidden inside).2 ?_)
      exact ⟨(drops.contains_iff.1 remains).2, owner, property, found,
        hidden, rfl, refers⟩
    · have listed :
          (⟨id, property.name, target⟩ : Reference) ∈ scene.references :=
        references_iff.2 ⟨owner, property, found, hidden.mem, rfl, refers⟩
      exact drops.contains_iff.2 ⟨targetsKnown _ listed, inside⟩
  · intro harmless reference listed
    by_cases inside : reference.target ∈ targets
    · obtain ⟨stays, owner, property, found, hidden, _, refers⟩ :=
        (drops.mem_references_iff_hidden inside).1 listed
      have remains :=
        drops.contains_iff.2 ⟨Option.isSome_of_eq_some found, stays⟩
      exact harmless reference.owner owner property reference.target found
        remains hidden refers
    · have known := targetsKnown reference (drops.mem_references_of_mem listed)
      exact drops.contains_iff.2 ⟨known, inside⟩

end Drops

end Scene

namespace RemoveOwners

/-- A removal that works out drops the owners that it erases, whatever the scene
is like. -/
theorem drops_removeAll
    {document : Document}
    (top : List OwnerId)
    (closure : OwnerSet) :
    (removeAll (document.scene.holdersOf closure) top closure).Ends document
      (fun _ final => document.scene.Drops closure final.scene)
      fun _ => True := by
  refine .bind ((Change.Ends.clear fun reference member =>
    Scene.exists_property_of_mem_references
      (Scene.mem_holdersOf.1 member).1).mono ?_)
  intro _ cleared isCleared
  have detached : (top.forM fun id => discard (Change.detach id)).Ends cleared
      (fun _ final => ∀ id, final.scene.content? id = cleared.scene.content? id)
      fun final => ∀ id, final.scene.content? id =
        cleared.scene.content? id := by
    refine .each (fun id _ middle contents => ?_) fun _ => rfl
    refine .discard (.detach ?_ contents)
    intro scene slot isDetached
    obtain ⟨_, rfl⟩ := Scene.detach_eq_ok_iff.1 isDetached
    exact fun other => (Scene.content?_released other).trans (contents other)
  refine .bind
    ((detached.worsen fun _ _ => trivial).mono fun _ middle contents => .scene
      fun id => ?_)
  have erases :
      middle.scene.Erases (eraseAll middle.scene closure) {id | id ∈ closure} :=
    erases_eraseAll closure
  split
  · next isGone => rw [Scene.content?, erases.lost id isGone, Option.map_none]
  · next stays =>
    rw [Scene.content?, erases.kept id stays]
    exact (contents id).trans (by rw [isCleared])

/-- A removal that changes the scene was not refused. -/
theorem apply_of_changed
    {command : RemoveOwners}
    {document : Document}
    (fresh : command.transition = none)
    (changed : (command.apply document).result = .ok .changed) :
    let top := document.scene.topLevel command.roots
    let closure := document.scene.removalClosure top
    ∃ touched remember, command.apply document = .first command document touched
      (removeAll (document.scene.holdersOf closure) top closure) remember := by
  revert changed
  rw [apply, fresh]
  simp only
  split
  · rintro ⟨⟩
  split
  · rintro ⟨⟩
  split
  · rintro ⟨⟩
  unfold removeTop
  simp only
  split
  · rintro ⟨⟩
  · exact fun _ => ⟨_, _, rfl⟩

/-- A removal from a loaded document leaves no dangling reference if and only if
no owner that stays has a hidden property that refers to what is gone. -/
theorem leaves_no_dangling_iff
    {snapshot : Snapshot}
    {settings : Settings}
    {document : Document}
    (loaded : Document.ofSnapshot snapshot settings = .ok document)
    {command : RemoveOwners}
    (fresh : command.transition = none)
    (changed : (command.apply document).result = .ok .changed) :
    let final := (command.apply document).state.scene
    (∀ reference ∈ final.references, final.contains reference.target = true) ↔
      ∀ id owner property target, document.scene.owner? id = some owner →
        final.contains id = true → owner.Hidden property →
        property.value.target? = some target →
        final.contains target = true := by
  obtain ⟨_, _, valid, rfl⟩ := Document.ofSnapshot_eq_ok_iff.1 loaded
  have demands := Scene.tolerable_violations_iff.1 (valid ▸ Scene.tolerable_nil)
  obtain ⟨touched, remember, same⟩ := apply_of_changed fresh changed
  rw [same] at changed ⊢
  exact ((drops_removeAll _ _).first changed).no_dangling_iff demands.targets

/-- The stored document with a tag that refers to its style twice, by properties
of the same name. -/
def restyled : Snapshot :=
  { Document.stored with
    owners := Document.stored.owners.map fun owner =>
      { owner with properties := owner.properties ++ owner.properties } }

theorem ofSnapshot_restyled :
    Document.ofSnapshot restyled {} = .ok (Document.unchecked restyled {}) :=
  rfl

theorem leaves_no_dangling_iff_restyled :
    let document := Document.unchecked restyled {}
    let command : RemoveOwners := { roots := [⟨4⟩], confirmed := true }
    let final := (command.apply document).state.scene
    Document.ofSnapshot restyled {} = .ok document ∧
      (command.apply document).result = .ok .changed ∧
      ((∀ reference ∈ final.references,
        final.contains reference.target = true) ↔
        ∀ id owner property target, document.scene.owner? id = some owner →
          final.contains id = true → owner.Hidden property →
          property.value.target? = some target →
          final.contains target = true) :=
  ⟨ofSnapshot_restyled, rfl, leaves_no_dangling_iff ofSnapshot_restyled rfl rfl⟩

/-- The second of two references by properties of the same name is left
dangling. -/
theorem leaves_dangling_restyled :
    let document := Document.unchecked restyled {}
    let command : RemoveOwners := { roots := [⟨4⟩], confirmed := true }
    let final := (command.apply document).state.scene
    Document.ofSnapshot restyled {} = .ok document ∧
      (command.apply document).result = .ok .changed ∧
      final.references = [⟨⟨5⟩, "style", ⟨4⟩⟩] ∧ final.contains ⟨4⟩ = false :=
  ⟨ofSnapshot_restyled, rfl, by decide +kernel, by decide +kernel⟩

end RemoveOwners
end MotionScene
