import MotionScene.Proofs.Command.Entry
import MotionScene.Proofs.Document.Opening

/-!
# Taking edits back and making them again

An entry that changed a document can be taken back and carried out again any
number of times, and always leads between the same two scenes.  An entry that
failed or found nothing to do leaves the scene and the clock as they were.
-/

namespace MotionScene
namespace Entry

/-- Whether an entry is carried out or taken back at present. -/
inductive Phase where
  | applied
  | reverted

/-- The scene of a phase, of the scenes before and after an entry. -/
def Phase.scene (before after : Scene) : Phase → Scene
  | applied => after
  | reverted => before

/-- What becomes of an entry and its document once it is carried out: in turn it
is taken back and carried out again, and meanwhile the clock may move and
numbers may be given out. -/
inductive Replayed (entry : Entry Edit) (document : Document) :
    Phase → Entry Edit → Document → Prop where
  | first : Replayed entry document .applied (entry.apply document).command
      (entry.apply document).state
  | meanwhile
      {phase : Phase}
      {current : Entry Edit}
      {state : Document}
      (replayed : Replayed entry document phase current state)
      (clock : Clock)
      (nextId : Nat) :
      Replayed entry document phase current { state with clock, nextId }
  | back
      {current : Entry Edit}
      {state : Document}
      (replayed : Replayed entry document .applied current state) :
      Replayed entry document .reverted (current.revert state).command
        (current.revert state).state
  | again
      {current : Entry Edit}
      {state : Document}
      (replayed : Replayed entry document .reverted current state) :
      Replayed entry document .applied (current.apply state).command
        (current.apply state).state

variable {entry current : Entry Edit} {document state : Document}
  {phase : Phase}

/-- An entry that changed the document leads from the scene before to the scene
after. -/
theorem leads_of_changed
    (wellFormed : document.WellFormed)
    (admissible : entry.Admissible document)
    (changed : (entry.apply document).result = .ok .changed) :
    (entry.apply document).command.Leads document.scene
      (entry.apply document).state.scene := by
  have lawful := entry.lawful wellFormed admissible
  generalize entry.apply document = step at lawful changed
  cases lawful with
  | changed command scene nextId later stillWellFormed replays => exact replays
  | idle => cases changed
  | failed => cases changed

/-- All the while the entry is the same, and the scene is one of two. -/
theorem Replayed.scene
    {after : Scene}
    (leads : (entry.apply document).command.Leads document.scene after)
    (isAfter : (entry.apply document).state.scene = after)
    (replayed : entry.Replayed document phase current state) :
    current = (entry.apply document).command ∧
      state.scene = phase.scene document.scene after := by
  induction replayed with
  | first => exact ⟨rfl, isAfter⟩
  | meanwhile _ clock nextId inductionHypothesis => exact inductionHypothesis
  | back _ inductionHypothesis =>
      obtain ⟨rfl, same⟩ := inductionHypothesis
      rw [leads.back _ same]
      exact ⟨rfl, rfl⟩
  | again _ inductionHypothesis =>
      obtain ⟨rfl, same⟩ := inductionHypothesis
      rw [leads.again _ same]
      exact ⟨rfl, rfl⟩

/-- Undo is exact and redo is stable: whenever an entry that changed a
well-formed document is taken back, this succeeds and restores the scene before;
whenever it is then carried out again, this changes the document and restores
the scene after. -/
theorem undo_exact_redo_stable
    (wellFormed : document.WellFormed)
    (admissible : entry.Admissible document)
    (changed : (entry.apply document).result = .ok .changed) :
    (∀ current state, entry.Replayed document .applied current state →
      state.scene = (entry.apply document).state.scene ∧
        (current.revert state).result = .ok () ∧
        (current.revert state).state.scene = document.scene) ∧
    ∀ current state, entry.Replayed document .reverted current state →
      state.scene = document.scene ∧
        (current.apply state).result = .ok .changed ∧
        (current.apply state).state.scene =
          (entry.apply document).state.scene := by
  have leads := leads_of_changed wellFormed admissible changed
  constructor
  · intro current state replayed
    obtain ⟨rfl, same⟩ := replayed.scene leads rfl
    refine ⟨same, ?_⟩
    rw [leads.back state same]
    exact ⟨rfl, rfl⟩
  · intro current state replayed
    obtain ⟨rfl, same⟩ := replayed.scene leads rfl
    refine ⟨same, ?_⟩
    rw [leads.again state same]
    exact ⟨rfl, rfl⟩

/-- Draws an ellipse and an empty object, groups and copies them, and picks what
is left. -/
def drawing (picked : OwnerId) : Entry Edit :=
  .group "Draw" [
    .single (.addOwners { items := [
      ⟨.ofKind ⟨3⟩ (.object .ellipse) {}, .child ⟨1⟩ 0⟩,
      ⟨.ofKind ⟨4⟩ (.object .empty) {}, .child ⟨1⟩ 0⟩] }),
    .group "Arrange" [
      .single (.reparent { moves := [(⟨3⟩, .child ⟨4⟩ 0)] }),
      .single (.copyObjects { sources := [⟨4⟩], parent := ⟨1⟩, index := 1 })],
    .single (.setSelection { selection := (∅ : OwnerSet).insert picked })]

theorem drawing_admissible (picked : OwnerId) (document : Document) :
    (drawing picked).Admissible document := by
  refine ⟨⟨.addOwners _, ?_⟩,
    fun _ _ => ⟨⟨?_, fun _ _ => ⟨?_, fun _ _ => trivial⟩⟩,
    fun _ _ => ⟨?_, fun _ _ => trivial⟩⟩⟩
  · rintro _ ⟨⟩
    exact AddOwners.admissible_ofKind (by simp) (by decide) document.scene
  · exact Edit.Fresh.admissible (.reparent _) nofun _
  · exact Edit.Fresh.admissible (.copyObjects _ _ _) nofun _
  · exact Edit.Fresh.admissible (.setSelection _) nofun _

theorem drawing_undone_and_redone :
    ((drawing ⟨6⟩).apply (.new ⟨0⟩ {})).result = .ok .changed ∧
      (∀ current state, (drawing ⟨6⟩).Replayed
          (.new ⟨0⟩ {}) .applied current state →
        state.scene = ((drawing ⟨6⟩).apply (.new ⟨0⟩ {})).state.scene ∧
          (current.revert state).result = .ok () ∧
          (current.revert state).state.scene = (Document.new ⟨0⟩ {}).scene) ∧
      ∀ current state, (drawing ⟨6⟩).Replayed
          (.new ⟨0⟩ {}) .reverted current state →
        state.scene = (Document.new ⟨0⟩ {}).scene ∧
          (current.apply state).result = .ok .changed ∧
          (current.apply state).state.scene =
            ((drawing ⟨6⟩).apply (.new ⟨0⟩ {})).state.scene :=
  ⟨rfl,
    undo_exact_redo_stable (Document.wellFormed_new ⟨0⟩ {})
      (drawing_admissible ⟨6⟩ _) rfl⟩

/-- An entry that failed or found nothing to do leaves the scene and the clock
as they were. -/
theorem unchanged_unless_changed
    (wellFormed : document.WellFormed)
    (admissible : entry.Admissible document)
    (unchanged : (entry.apply document).result ≠ .ok .changed) :
    (entry.apply document).state.scene = document.scene ∧
      (entry.apply document).state.clock = document.clock := by
  have lawful := entry.lawful wellFormed admissible
  generalize entry.apply document = step at lawful unchanged
  cases lawful with
  | changed => exact absurd rfl unchanged
  | idle => exact ⟨rfl, rfl⟩
  | failed => exact ⟨rfl, rfl⟩

theorem drawing_failed_unchanged :
    ((drawing ⟨7⟩).apply (.new ⟨0⟩ {})).result = .error (.unknownOwner ⟨7⟩) ∧
      ((drawing ⟨7⟩).apply (.new ⟨0⟩ {})).state.scene =
        (Document.new ⟨0⟩ {}).scene ∧
      ((drawing ⟨7⟩).apply (.new ⟨0⟩ {})).state.clock =
        (Document.new ⟨0⟩ {}).clock := by
  have failed : ((drawing ⟨7⟩).apply (.new ⟨0⟩ {})).result =
      .error (.unknownOwner ⟨7⟩) := rfl
  refine ⟨failed, unchanged_unless_changed (Document.wellFormed_new ⟨0⟩ {})
    (drawing_admissible ⟨7⟩ _) ?_⟩
  rw [failed]
  nofun

end Entry
end MotionScene
