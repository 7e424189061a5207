import MotionScene.Proofs.Command.Edit

/-!
# Groups of edits are lawful

A group carries its parts out in order.  When one of them fails, those before it
are taken back, last first; each of them then finds the scene it left.  So a
group can be replayed when its parts can, and leaves nothing behind when it
fails.
-/

namespace MotionScene
namespace Entry

/-- An entry leads from one scene to another, and back. -/
abbrev Leads (entry : Entry Edit) (before after : Scene) : Prop :=
  Replays Entry.apply Entry.revert entry before after

/-- Entries lead from one scene to another, one after the other. -/
inductive Runs : Scene → List (Entry Edit) → Scene → Prop where
  | nil (scene : Scene) : Runs scene [] scene
  | cons
      {start middle final : Scene}
      {entry : Entry Edit}
      {rest : List (Entry Edit)}
      (leads : entry.Leads start middle)
      (runs : Runs middle rest final) :
      Runs start (entry :: rest) final

variable {start middle final : Scene} {entry : Entry Edit}
  {parts applied : List (Entry Edit)}

namespace Runs

theorem eq_of_nil (runs : Runs start [] final) : start = final := by
  cases runs
  rfl

theorem snoc
    (runs : Runs start parts middle)
    (leads : entry.Leads middle final) :
    Runs start (parts ++ [entry]) final := by
  induction runs with
  | nil => exact .cons leads (.nil final)
  | cons first _ inductionHypothesis =>
      exact .cons first (inductionHypothesis leads)

theorem of_snoc (runs : Runs start (parts ++ [entry]) final) :
    ∃ middle, Runs start parts middle ∧ entry.Leads middle final := by
  induction parts generalizing start with
  | nil =>
      cases runs with
      | cons leads rest =>
          cases rest
          exact ⟨start, .nil start, leads⟩
  | cons first rest inductionHypothesis =>
      cases runs with
      | cons leads runs =>
          obtain ⟨middle, before, last⟩ := inductionHypothesis runs
          exact ⟨middle, .cons leads before, last⟩

/-- Taking entries back leads to the start. -/
theorem revertParts
    (runs : Runs start parts final)
    (document : Document)
    (same : document.scene = final) :
    Entry.revertParts parts document =
      ⟨parts, { document with scene := start }, .ok ()⟩ := by
  induction runs with
  | nil =>
      subst same
      rfl
  | cons leads _ inductionHypothesis =>
      rw [Entry.revertParts, inductionHypothesis same]
      simp only
      rw [leads.back _ rfl]

/-- Taking entries back because another one failed leads to the start. -/
theorem rollback
    (runs : Runs start applied.reverse final)
    (document : Document)
    (same : document.scene = final) :
    Entry.rollback applied document =
      ⟨applied, { document with scene := start }, .ok ()⟩ := by
  induction applied generalizing final document with
  | nil =>
      cases runs
      subst same
      rfl
  | cons entry rest inductionHypothesis =>
      rw [List.reverse_cons] at runs
      obtain ⟨middle, before, leads⟩ := runs.of_snoc
      rw [Entry.rollback, leads.back document same]
      simp only
      rw [inductionHypothesis before _ rfl]

/-- Carrying entries out again leads to the end. -/
theorem applyParts
    (runs : Runs start parts final)
    (document : Document)
    (same : document.scene = start)
    (applied : List (Entry Edit)) :
    Entry.applyParts parts applied document =
      ⟨applied.reverse ++ parts, { document with scene := final },
        .ok (if (applied.reverse ++ parts).isEmpty then .noop
          else .changed)⟩ := by
  induction runs generalizing document applied with
  | nil =>
      subst same
      simp [Entry.applyParts]
  | cons leads _ inductionHypothesis =>
      rw [Entry.applyParts, leads.again document same]
      simp only
      rw [inductionHypothesis _ rfl, List.reverse_cons, List.append_assoc]
      rfl

/-- Parts that lead from one scene to another can be replayed as one. -/
theorem replays (runs : Runs start parts final) (nonempty : parts ≠ []) :
    Replays (fun parts document => Entry.applyParts parts [] document)
      Entry.revertParts parts start final := by
  constructor
  · exact runs.revertParts
  · intro document same
    have isEmpty : parts.isEmpty = false := List.isEmpty_eq_false_iff.2 nonempty
    simp only [runs.applyParts document same [], List.reverse_nil,
      List.nil_append, isEmpty]
    rfl

end Runs

mutual

/-- An entry of edits as they are built, each admissible when its turn comes. -/
def Admissible : Entry Edit → Document → Prop
  | single edit, document => edit.Admissible document.scene
  | group _ parts, document => AdmissibleParts parts document

/-- Entries that are admissible when their turn comes. -/
def AdmissibleParts : List (Entry Edit) → Document → Prop
  | [], _ => True
  | part :: rest, document =>
    part.Admissible document ∧
      ∀ outcome, (part.apply document).result = .ok outcome →
        AdmissibleParts rest (part.apply document).state

end

mutual

/-- Carrying out an entry of edits is lawful. -/
theorem lawful
    (entry : Entry Edit)
    {document : Document}
    (wellFormed : document.WellFormed)
    (admissible : entry.Admissible document) :
    Lawful Entry.apply Entry.revert document (entry.apply document) := by
  match entry with
  | single edit =>
      exact (Edit.lawful wellFormed admissible).map single (fun _ _ => rfl)
        (fun _ _ => rfl)
  | group label parts =>
      exact (lawful_parts parts [] (.nil _)
        (Nat.le_refl _) wellFormed admissible).map
        (group label) (fun _ _ => rfl) (fun _ _ => rfl)

/-- Carrying out the parts that remain of a group; those before lead from the
scene at its start to the present one. -/
theorem lawful_parts
    (parts applied : List (Entry Edit))
    {base : Document}
    {scene : Scene}
    {nextId : Nat}
    (runs : Runs base.scene applied.reverse scene)
    (later : base.nextId ≤ nextId)
    (wellFormed : { base with scene, nextId }.WellFormed)
    (admissible : AdmissibleParts parts { base with scene, nextId }) :
    Lawful (fun parts document => Entry.applyParts parts [] document)
      Entry.revertParts base
      (Entry.applyParts parts applied { base with scene, nextId }) := by
  match parts with
  | [] =>
      rw [Entry.applyParts]
      cases applied with
      | nil =>
          obtain rfl := runs.eq_of_nil
          exact .idle [] nextId later
      | cons last others =>
          exact .changed _ scene nextId later wellFormed
            (runs.replays (by simp))
  | part :: others =>
      obtain ⟨partAdmissible, restAdmissible⟩ := admissible
      have lawfulPart := lawful part wellFormed partAdmissible
      rw [Entry.applyParts]
      generalize part.apply { base with scene, nextId } =
        step at lawfulPart restAdmissible
      cases lawfulPart with
      | changed command after number laterStill stillWellFormed replays =>
          refine lawful_parts others (command :: applied) ?_
            (later.trans laterStill)
            stillWellFormed (restAdmissible .changed rfl)
          rw [List.reverse_cons]
          exact runs.snoc replays
      | idle command number laterStill =>
          exact lawful_parts others applied runs (later.trans laterStill)
            (wellFormed.later laterStill) (restAdmissible .noop rfl)
      | failed command number laterStill fault =>
          simp only [runs.rollback { base with scene, nextId := number } rfl]
          exact .failed _ number (later.trans laterStill) fault

end

end Entry
end MotionScene
