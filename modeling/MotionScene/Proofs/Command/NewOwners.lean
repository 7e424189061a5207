import MotionScene.Proofs.Command.Issuing

/-!
# Owners that copying and converting add

Copies and the paths that replace shapes are registered under numbers that were
not given out before.  This is so in any document, and also when the edit fails
half-way.
-/

namespace MotionScene

namespace Scene

/-- Every registered owner is allowed. -/
def Registers (scene : Scene) (allowed : OwnerId → Prop) : Prop :=
  ∀ id, scene.contains id = true → allowed id

namespace Registers

variable {scene changed : Scene} {allowed : OwnerId → Prop} {id : OwnerId}

/-- Changes that register and erase no owner. -/
theorem congr
    (registers : scene.Registers allowed)
    (same : ∀ other, changed.categoryOf other = scene.categoryOf other) :
    changed.Registers allowed := by
  intro other known
  rw [contains_eq_categoryOf, same, ← contains_eq_categoryOf] at known
  exact registers other known

theorem insert
    (registers : scene.Registers allowed)
    {owner : Owner}
    (isAllowed : allowed owner.id) :
    (scene.insert owner).Registers allowed := by
  intro other known
  rw [contains, owner?_insert] at known
  split at known
  · next same => exact same ▸ isAllowed
  · exact registers other known

theorem erase (registers : scene.Registers allowed) (id : OwnerId) :
    (scene.erase id).Registers allowed := by
  intro other known
  rw [contains, owner?_erase] at known
  split at known
  · cases known
  · exact registers other known

theorem modify (registers : scene.Registers allowed) (change : Owner → Owner) :
    (scene.modify id change).Registers allowed := by
  intro other known
  rw [contains, owner?_modify] at known
  split at known
  · next same =>
    subst same
    rw [Option.isSome_map] at known
    exact registers id known
  · exact registers other known

theorem store
    (registers : scene.Registers allowed)
    {name : String}
    {value : Value}
    (isStored : scene.store id name value = .ok changed) :
    changed.Registers allowed := by
  obtain ⟨property, _, rfl⟩ := store_eq_ok_iff.1 isStored
  exact registers.congr sameLinks_withProperty.category

theorem detach
    (registers : scene.Registers allowed)
    {slot : Slot}
    (isDetached : scene.detach id = .ok (changed, slot)) :
    changed.Registers allowed := by
  obtain ⟨_, rfl⟩ := detach_eq_ok_iff.1 isDetached
  exact registers.congr fun other => categoryOf_released other

theorem attach
    (registers : scene.Registers allowed)
    {slot : Slot}
    (isAttached : scene.attach id slot = .ok changed) :
    changed.Registers allowed := by
  obtain ⟨_, rfl⟩ := attach_eq_ok_iff.1 isAttached
  exact registers.congr fun other => categoryOf_hung other

/-- What is put back was there before the change. -/
theorem restore
    {left : Scene}
    (registers : scene.Registers allowed)
    (leftRegisters : left.Registers allowed)
    (touched : OwnerSet) :
    ((Checkpoint.capture scene touched).restore left).Registers allowed := by
  intro other known
  change ((List.foldl Checkpoint.restoreOwner left _).owner? other).isSome =
    true at known
  rw [Checkpoint.capture, Checkpoint.owner?_foldl_restoreOwner] at known
  split at known
  · exact registers other known
  · exact leftRegisters other known

/-- A change for the first time registers what its pieces register. -/
theorem first
    {κ : Type}
    {command : κ}
    {document : Document}
    (registers : document.scene.Registers allowed)
    {touched : OwnerSet}
    {change : Change Unit}
    {remember : Transition → κ}
    (ends : change.Ends document (fun _ final => final.scene.Registers allowed)
      (fun left => left.scene.Registers allowed)) :
    (Step.first command document touched change remember).state.scene.Registers
      allowed := by
  unfold Change.Ends at ends
  unfold Step.first Transition.record
  cases outcome : change document with
  | error fault left =>
      rw [outcome] at ends
      exact registers.restore ends touched
  | ok result final =>
      rw [outcome] at ends
      exact ends

end Registers

/-- Owners that a document has, or whose numbers it has not given out yet. -/
def Adds (document : Document) (scene : Scene) : Prop :=
  scene.Registers fun id => document.scene.contains id = true ∨
    document.nextId ≤ id.number

end Scene

namespace CopyObjects

variable {command : CopyObjects} {allowed : OwnerId → Prop}

theorem registers_attachAll
    {middle : Document}
    (registers : middle.scene.Registers allowed)
    (parent : OwnerId)
    (index : Nat)
    (ids : List OwnerId) :
    (attachAll parent index ids).Ends middle
      (fun _ final => final.scene.Registers allowed)
      (fun left => left.scene.Registers allowed) := by
  induction ids generalizing middle index with
  | nil => exact registers
  | cons id rest inductionHypothesis =>
      refine .bind (.attach (fun scene isAttached => ?_) registers)
      have attached : { middle with scene }.scene.Registers allowed :=
        registers.attach isAttached
      exact inductionHypothesis attached (index + 1)

theorem registers_foldl_insert
    {scene : Scene}
    (registers : scene.Registers allowed)
    {owners : List Owner}
    (isAllowed : ∀ owner ∈ owners, allowed owner.id) :
    (owners.foldl Scene.insert scene).Registers allowed := by
  induction owners generalizing scene with
  | nil => exact registers
  | cons owner rest inductionHypothesis =>
      rw [List.forall_mem_cons] at isAllowed
      exact inductionHypothesis (registers.insert isAllowed.1) isAllowed.2

/-- Copies get numbers that were not given out before. -/
theorem adds_copies (document : Document) (ids : List OwnerId) :
    let renumbering := Renumbering.consecutive document.nextId ids
    Scene.Adds document (((renumbering.keys.filterMap document.scene.owner?).map
      renumbering.owner).foldl Scene.insert document.scene) := by
  intro renumbering
  refine registers_foldl_insert (fun _ => Or.inl) fun copy member => Or.inr ?_
  obtain ⟨source, new, owner, found, known, rfl⟩ := mem_copies.1 member
  rw [id_of_copy found known]
  exact (number_of_consecutive found).1

theorem adds_copyTop
    (command : CopyObjects)
    (document : Document)
    (top : List OwnerId) :
    Scene.Adds document (command.copyTop document top).state.scene := by
  have start : Scene.Adds document document.scene := fun _ => Or.inl
  unfold copyTop
  simp only
  split
  · exact start
  next allocated isAllocated =>
  obtain ⟨_, rfl⟩ := Document.allocateMany_eq_ok_iff.1 isAllocated
  unfold Scene.Adds
  apply Scene.Registers.first
  · exact start
  · refine .bind (.scene ?_)
    apply registers_attachAll
    exact adds_copies document _

theorem adds (unused : command.transition = none) (document : Document) :
    Scene.Adds document (command.apply document).state.scene := by
  have start : Scene.Adds document document.scene := fun _ => Or.inl
  rw [apply, unused]
  cases command.check document.scene with
  | error fault => exact start
  | ok _ =>
      simp only
      split
      · exact start
      · exact adds_copyTop command document _

end CopyObjects

namespace Convert

variable {command : Convert} {allowed : OwnerId → Prop}

theorem registers_replaceOne
    {middle : Document}
    (registers : middle.scene.Registers allowed)
    (source : OwnerId)
    {path : Owner}
    (isAllowed : allowed path.id) :
    (replaceOne source path).Ends middle
      (fun _ final => final.scene.Registers allowed)
      (fun left => left.scene.Registers allowed) := by
  refine .bind (.detach (fun scene slot isDetached => ?_) registers)
  have detached : { middle with scene }.scene.Registers allowed :=
    registers.detach isDetached
  refine .bind
    (.consult (fun content _ =>
      .bind (.scene (.bind (.mono (.each ?_ ?_) ?_)))) detached)
  · intro id _ middle registers
    exact .bind (.consult (fun _ _ => .scene (registers.modify _)) registers)
  · exact detached.modify _
  · intro _ handed registers
    have inserted : (handed.scene.insert
        { path with
          children := content.children
          tags := content.tags }).Registers allowed :=
      registers.insert isAllowed
    refine .bind
      (.scene (.bind (.attach (fun scene isAttached => ?_) inserted)))
    have attached : { handed with scene }.scene.Registers allowed :=
      inserted.attach isAttached
    refine .bind
      (.consult (fun holders _ =>
        .bind (.mono (.each ?_ attached) ?_)) attached)
    · intro reference _ middle registers
      exact .assign (fun scene isStored => registers.store isStored) registers
    · exact fun _ redirected registers =>
        .scene (Scene.Registers.erase registers source)

theorem adds (unused : command.transition = none) (document : Document) :
    Scene.Adds document (command.apply document).state.scene := by
  have start : Scene.Adds document document.scene := fun _ => Or.inl
  rw [apply, unused]
  simp only
  split
  · exact start
  · rw [convertAll]
    obtain ⟨count, counted⟩ :=
      exists_counted document (command.sources document.scene)
    have countedStart :
        Scene.Adds document (document.counted count).scene := start
    rcases outcome : pathsFor document (command.sources document.scene) with
      ⟨last, fault | pairs⟩
    all_goals
      rw [outcome] at counted
      obtain rfl : last = document.counted count := counted
    · exact countedStart
    · have drafts := drafts_of_pathsFor outcome
      refine Scene.Registers.first countedStart (.each ?_ countedStart)
      intro pair isPair middle registers
      exact registers_replaceOne registers pair.1
        (Or.inr (drafts.fresh isPair).1)

end Convert
end MotionScene
