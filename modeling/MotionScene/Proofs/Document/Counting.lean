import MotionScene.Document.Basic
import MotionScene.Proofs.Attempt

/-!
# Giving numbers out

A document gives out the numbers of owners one after the other, as long as there
are any.  Where there is room for them, what it does is to move its counter on.
-/

namespace MotionScene
namespace Document

/-- A document that has given some numbers out. -/
def counted (document : Document) (count : Nat) : Document :=
  { document with nextId := document.nextId + count }

/-- A document that gives out no number up to that of an owner. -/
def above (document : Document) (id : OwnerId) : Document :=
  { document with nextId := Nat.max document.nextId (id.number + 1) }

@[simp] theorem scene_counted (document : Document) (count : Nat) :
    (document.counted count).scene = document.scene :=
  rfl

theorem counted_counted (document : Document) (first second : Nat) :
    (document.counted first).counted second =
      document.counted (first + second) := by
  simp only [counted, Nat.add_assoc]

@[simp] theorem scene_above (document : Document) (id : OwnerId) :
    (document.above id).scene = document.scene :=
  rfl

variable {document after : Document}

/-- A number is given out if there is another one after it. -/
theorem allocate_eq (document : Document) :
    document.allocate =
      if document.nextId + 1 < OwnerId.limit then
        .ok (document.counted 1, ⟨document.nextId⟩)
      else .error (.halted "attempt to add with overflow") := by
  rw [allocate, countOn]
  split <;> rfl

theorem allocate_eq_ok_iff {id : OwnerId} :
    document.allocate = .ok (after, id) ↔
      document.nextId + 1 < OwnerId.limit ∧ after = document.counted 1 ∧
        id = ⟨document.nextId⟩ := by
  rw [allocate_eq]
  split <;> simp [*, eq_comm]

/-- Several numbers are given out if there is another one after all of them. -/
theorem allocateMany_eq (document : Document) (count : Nat) :
    document.allocateMany count =
      if count = 0 ∨ document.nextId + count < OwnerId.limit then
        .ok (document.counted count)
      else .error (.halted "attempt to add with overflow") := by
  induction count generalizing document with
  | zero => rfl
  | succ count inductionHypothesis =>
      rw [allocateMany, allocate_eq]
      by_cases room : document.nextId + 1 < OwnerId.limit
      · rw [if_pos room, Attempt.ok_bind]
        have same : count = 0 ∨
              (document.counted 1).nextId + count < OwnerId.limit ↔
            count + 1 = 0 ∨ document.nextId + (count + 1) < OwnerId.limit := by
          have next : (document.counted 1).nextId = document.nextId + 1 := rfl
          omega
        simp only [inductionHypothesis, counted_counted, Nat.add_comm 1, same]
      · have full : ¬(count + 1 = 0 ∨
            document.nextId + (count + 1) < OwnerId.limit) := by omega
        rw [if_neg room, if_neg full, Attempt.error_bind]

theorem allocateMany_eq_ok_iff {count : Nat} :
    document.allocateMany count = .ok after ↔
      (count = 0 ∨ document.nextId + count < OwnerId.limit) ∧
        after = document.counted count := by
  rw [allocateMany_eq]
  split <;> simp [*, eq_comm]

/-- Numbers up to one are not given out any more if there is one after it. -/
theorem reserve_eq_ok_iff {id : OwnerId} :
    document.reserve id = .ok after ↔
      id.number + 1 < OwnerId.limit ∧ after = document.above id := by
  rw [reserve, countOn]
  split <;> simp [*, above, eq_comm]

/-- A new owner has the number that was given out for it. -/
theorem createOwner_eq_ok_iff {kind : OwnerKind} {owner : Owner} :
    document.createOwner kind = .ok (after, owner) ↔
      document.nextId + 1 < OwnerId.limit ∧ after = document.counted 1 ∧
        owner = .ofKind ⟨document.nextId⟩ kind document.paths := by
  rw [createOwner, Attempt.bind_eq_ok_iff]
  constructor
  · rintro ⟨⟨_, _⟩, given, same⟩
    obtain ⟨room, rfl, rfl⟩ := allocate_eq_ok_iff.1 given
    cases same
    exact ⟨room, rfl, rfl⟩
  · rintro ⟨room, rfl, rfl⟩
    exact ⟨_, allocate_eq_ok_iff.2 ⟨room, rfl, rfl⟩, rfl⟩

end Document
end MotionScene
