import MotionScene.Command.Reparenting
import MotionScene.Proofs.Command.Lawful

/-!
# Moving owners is lawful

A move is a detaching and an attaching, and each of them can be taken back; so a
run of moves can be unwound from any point.  When every owner ends up in the
slot it came from, nothing has changed.
-/

namespace MotionScene
namespace Reparent

variable {start scene middle final : Scene} {id : OwnerId} {slot old : Slot}
  {done : List (OwnerId × Slot)}

/-- One owner was moved away from a slot. -/
def Moved (scene final : Scene) (id : OwnerId) (old : Slot) : Prop :=
  ∃ detached slot, scene.detach id = .ok (detached, old) ∧
    detached.attach id slot = .ok final

namespace Moved

theorem detached_linked
    (linked : scene.Linked ∅)
    {detached : Scene}
    (isDetached : scene.detach id = .ok (detached, old)) :
    detached.Linked {id} := by
  obtain ⟨found, rfl⟩ := Scene.detach_eq_ok_iff.1 isDetached
  have released := linked.released found
  rwa [Set.empty_union] at released

/-- A move keeps owners where they belong, and changes nothing but links. -/
theorem linked (linked : scene.Linked ∅) (moved : Moved scene final id old) :
    final.Linked ∅ := by
  obtain ⟨detached, slot, isDetached, isAttached⟩ := moved
  obtain ⟨check, rfl⟩ := Scene.attach_eq_ok_iff.1 isAttached
  have hung := (detached_linked linked isDetached).hung rfl check
  rwa [Set.sdiff_self] at hung

theorem content? (moved : Moved scene final id old) (other : OwnerId) :
    final.content? other = scene.content? other := by
  obtain ⟨detached, slot, isDetached, isAttached⟩ := moved
  obtain ⟨_, rfl⟩ := Scene.detach_eq_ok_iff.1 isDetached
  obtain ⟨_, rfl⟩ := Scene.attach_eq_ok_iff.1 isAttached
  simp

theorem selection (moved : Moved scene final id old) :
    final.selection = scene.selection := by
  obtain ⟨detached, slot, isDetached, isAttached⟩ := moved
  obtain ⟨_, rfl⟩ := Scene.detach_eq_ok_iff.1 isDetached
  obtain ⟨_, rfl⟩ := Scene.attach_eq_ok_iff.1 isAttached
  simp

/-- A moved owner can be detached again and attached where it came from. -/
theorem back
    (linked : scene.Linked ∅)
    (moved : Moved scene final id old) :
    ∃ detached found, final.detach id = .ok (detached, found) ∧
      detached.attach id old = .ok scene := by
  obtain ⟨detached, slot, isDetached, isAttached⟩ := moved
  obtain ⟨found, isFound⟩ :=
    (detached_linked linked isDetached).detach_attached rfl isAttached
  exact ⟨detached, found, isFound, linked.attach_detached isDetached⟩

/-- An owner that is in the slot it came from was not moved at all. -/
theorem eq_of_slotOf
    (linked : scene.Linked ∅)
    (moved : Moved scene final id old)
    (same : final.slotOf id = some old) :
    final = scene := by
  obtain ⟨detached, found, isDetached, isBack⟩ := moved.back linked
  have isOld : found = old := by
    rw [(Scene.detach_eq_ok_iff.1 isDetached).1] at same
    exact Option.some.inj same
  subst isOld
  have again := (moved.linked linked).attach_detached isDetached
  rw [isBack] at again
  exact (Except.ok.inj again).symm

end Moved

/-- A run of moves, given last first with the slots the owners came from. -/
inductive Moves (start : Scene) : List (OwnerId × Slot) → Scene → Prop where
  | nil : Moves start [] start
  | cons
      {done : List (OwnerId × Slot)}
      {middle final : Scene}
      {id : OwnerId}
      {old : Slot}
      (moves : Moves start done middle)
      (moved : Moved middle final id old) :
      Moves start ((id, old) :: done) final

namespace Moves

theorem linked (linked : start.Linked ∅) (moves : Moves start done final) :
    final.Linked ∅ := by
  induction moves with
  | nil => exact linked
  | cons _ moved inductionHypothesis => exact moved.linked inductionHypothesis

theorem content? (moves : Moves start done final) (id : OwnerId) :
    final.content? id = start.content? id := by
  induction moves with
  | nil => rfl
  | cons _ moved inductionHypothesis => rw [moved.content?, inductionHypothesis]

theorem selection (moves : Moves start done final) :
    final.selection = start.selection := by
  induction moves with
  | nil => rfl
  | cons _ moved inductionHypothesis =>
      rw [moved.selection, inductionHypothesis]

/-- Unwinding a run of moves leads back to its start. -/
theorem unwind
    (linked : start.Linked ∅)
    (moves : Moves start done final) :
    unwind final done = (start, .ok ()) := by
  induction moves with
  | nil => rfl
  | cons moves moved inductionHypothesis =>
      obtain ⟨detached, found, isDetached, isBack⟩ :=
        moved.back (moves.linked linked)
      simp only [Reparent.unwind, isDetached, isBack]
      exact inductionHypothesis

/-- A run of moves after which every owner is where it came from has changed
nothing. -/
theorem eq_of_slots
    (linked : start.Linked ∅)
    (moves : Moves start done final)
    (same : ∀ item ∈ done, final.slotOf item.1 = some item.2) :
    final = start := by
  induction moves with
  | nil => rfl
  | cons moves moved inductionHypothesis =>
      have unmoved :=
        moved.eq_of_slotOf (moves.linked linked) (same _ List.mem_cons_self)
      subst unmoved
      exact inductionHypothesis fun item member =>
        same item (List.mem_cons_of_mem _ member)

end Moves

/-- One move leads on, or leaves the scene as it was. -/
theorem moveOne_cases
    (linked : scene.Linked ∅)
    (id : OwnerId)
    (slot : Slot) :
    (∃ final old, moveOne scene id slot = (final, .ok old) ∧
      Moved scene final id old) ∨
      ∃ fault, moveOne scene id slot = (scene, .error fault) := by
  unfold moveOne
  cases isDetached : scene.detach id with
  | error fault => exact Or.inr ⟨fault, rfl⟩
  | ok pair =>
      obtain ⟨detached, old⟩ := pair
      simp only
      cases isAttached : detached.attach id slot with
      | ok final =>
          exact Or.inl ⟨final, old, rfl, detached, slot, isDetached, isAttached⟩
      | error fault =>
          rw [linked.attach_detached isDetached]
          exact Or.inr ⟨fault, rfl⟩

/-- Moves lead on, or leave the scene as it was at the start. -/
theorem moveAll_cases
    (linked : start.Linked ∅)
    (before : Moves start done scene)
    (moves : List (OwnerId × Slot)) :
    (∃ final all, moveAll scene done moves = (final, .ok all) ∧
      Moves start all final) ∨
      ∃ fault, moveAll scene done moves = (start, .error fault) := by
  induction moves generalizing scene done with
  | nil => exact Or.inl ⟨scene, done, rfl, before⟩
  | cons move rest inductionHypothesis =>
      obtain ⟨id, slot⟩ := move
      rcases moveOne_cases (before.linked linked) id slot with
        ⟨final, old, isMoved, moved⟩ | ⟨fault, isStuck⟩
      · simp only [moveAll, isMoved]
        exact inductionHypothesis (before.cons moved)
      · simp only [moveAll, isStuck, before.unwind linked]
        exact Or.inr ⟨fault, rfl⟩

/-- Moving owners to other slots is lawful. -/
theorem lawful
    {document : Document}
    (wellFormed : document.WellFormed)
    (command : Reparent) :
    Lawful apply revert document (command.apply document) := by
  rw [apply]
  have linked := wellFormed.linked
  rcases moveAll_cases linked .nil command.moves with
    ⟨final, all, isDone, moves⟩ | ⟨fault, isStuck⟩
  · simp only [isDone]
    split
    · next unmoved =>
      have same : final = document.scene := by
        refine moves.eq_of_slots linked ?_
        simpa using unmoved
      rw [same]
      exact .ofIdle command
    · next differs =>
      have known : ∀ id, final.contains id = document.scene.contains id := by
        intro id
        rw [Scene.contains_eq_content?,
          moves.content?, ← Scene.contains_eq_content?]
      refine .ofScene (wellFormed.withScene (moves.linked linked)
        (wellFormed.sound.congr moves.content? moves.selection) ?_) ⟨?_, ?_⟩
      · intro id member
        rwa [known] at member
      · intro again isAfter
        simp only [revert, isAfter, moves.unwind linked]
      · intro again isBefore
        rw [apply]
        simp only [isBefore, isDone]
        rw [if_neg differs]
  · simp only [isStuck]
    exact .ofFailed command fault

end Reparent
end MotionScene
