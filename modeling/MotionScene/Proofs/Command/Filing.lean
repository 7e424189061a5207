import MotionScene.Proofs.Command.Flattening
import MotionScene.Proofs.Command.NewOwners

/-!
# Edits that can be filed

An edit that changed something can be filed in a history: all owners it records
have numbers that were given out, and carrying it out again gives out no more.
The same holds of groups, whose parts are carried out one after the other and
are taken back when one of them fails.
-/

namespace MotionScene

namespace Edit

/-- An edit that was carried out and records no number that is still to be given
out. -/
structure Filed (bound : Nat) (edit : Edit) : Prop where
  done : edit.Done
  recorded : ∀ id ∈ edit.recorded, id.Below bound

theorem Filed.mono
    {bound later : Nat}
    {edit : Edit}
    (filed : edit.Filed bound)
    (le : bound ≤ later) :
    edit.Filed later :=
  ⟨filed.done, fun id member => (filed.recorded id member).mono le⟩

/-- An edit that may be carried out: as it is built, or filed. -/
def Ready (bound : Nat) (edit : Edit) : Prop :=
  edit.Fresh ∨ edit.Filed bound

theorem Ready.mono
    {bound later : Nat}
    {edit : Edit}
    (ready : edit.Ready bound)
    (le : bound ≤ later) :
    edit.Ready later :=
  ready.imp_right fun filed => filed.mono le

theorem Fresh.remembered {edit : Edit} (fresh : edit.Fresh) :
    edit.remembered = [] := by
  cases fresh <;> rfl

variable {document : Document} {edit : Edit}

/-- Carrying an edit out gives numbers out in order, and records no others. -/
theorem advances
    (numbered : document.Numbered)
    (ready : edit.Ready document.nextId) :
    edit.Advances document (edit.apply document) := by
  have remembered : ∀ id ∈ edit.remembered, id.Below document.nextId := by
    rcases ready with fresh | filed
    · rw [fresh.remembered]
      exact List.forall_mem_nil _
    · exact (List.forall_mem_append.1 filed.recorded).2
  have settled := ready.imp_right Filed.recorded
  cases edit with
  | setProperty command => exact SetProperty.advances numbered remembered
  | setSelection command => exact SetSelection.advances numbered remembered
  | createTrack command => exact CreateTrack.advances numbered command
  | removeTrack command => exact RemoveTrack.advances numbered command
  | createKeyframe command => exact CreateKeyframe.advances numbered command
  | removeKeyframe command => exact RemoveKeyframe.advances numbered command
  | moveKeyframes command => exact MoveKeyframes.advances numbered remembered
  | setInterpolation command => exact SetInterpolation.advances numbered command
  | editPath command => exact EditPath.advances numbered command
  | addOwners command =>
      exact AddOwners.advances numbered remembered
        (settled.imp_left fun | .addOwners _ => rfl)
  | removeOwners command =>
      exact RemoveOwners.advances numbered remembered
        (settled.imp_left fun | .removeOwners _ _ _ => rfl)
  | reparent command => exact Reparent.advances numbered remembered
  | copyObjects command =>
      exact CopyObjects.advances numbered remembered
        (settled.imp_left fun | .copyObjects _ _ _ => rfl)
  | convert command =>
      exact Convert.advances numbered remembered
        (settled.imp_left fun | .convert _ => rfl)

/-! ## Taking back -/

/-- What taking a command back does to the numbers of a document: nothing. -/
structure Reverts
    {κ : Type}
    (command : κ)
    (document : Document)
    (step : Step κ Document Unit) :
    Prop where
  command : step.command = command
  nextId : step.state.nextId = document.nextId
  numbered : step.state.Numbered

theorem Reverts.backTo
    {κ : Type}
    {view : κ → Edit}
    {command : κ}
    (numbered : document.Numbered)
    {outcome : Except Fault Scene}
    (ends : ∀ scene, outcome = .ok scene →
      scene.Names (OwnerId.Below document.nextId)) :
    Reverts (view command) document
      ((Step.backTo command document outcome).map view) := by
  cases outcome with
  | error fault => exact ⟨rfl, rfl, numbered⟩
  | ok scene => exact ⟨rfl, rfl, ends scene rfl⟩

theorem Reverts.back
    {κ : Type}
    {view : κ → Edit}
    {command : κ}
    (numbered : document.Numbered)
    {transition : Option Transition}
    (below : ∀ id ∈ transition.toList.flatMap Transition.named,
      id.Below document.nextId) :
    Reverts (view command) document
      ((Step.back command document transition).map view) := by
  cases transition with
  | none => exact ⟨rfl, rfl, numbered⟩
  | some transition =>
      refine ⟨rfl, rfl, numbered.restore fun id member => below id ?_⟩
      simpa [Transition.named] using Or.inl member

/-- Taking an edit back brings in only what it remembers. -/
theorem reverts
    (numbered : document.Numbered)
    (remembered : ∀ id ∈ edit.remembered, id.Below document.nextId) :
    Reverts edit document (edit.revert document) := by
  cases edit with
  | setProperty command =>
      refine ⟨rfl, rfl,
        SetProperty.names_storeAll numbered fun item member target refers => ?_⟩
      refine remembered target
        (List.mem_flatMap.2 ⟨item, List.mem_reverse.1 member, ?_⟩)
      exact List.mem_cons_of_mem _ (Option.mem_toList.2 refers)
  | setSelection command =>
      exact ⟨rfl, rfl, numbered.owners, numbered.styles, numbered.tools,
        fun id member => remembered id (Std.ExtTreeSet.mem_toList.2 member)⟩
  | createTrack command =>
      exact .backTo numbered fun scene isSet => (numbered.setTrack isSet).1
  | removeTrack command =>
      exact .backTo numbered fun scene isSet => (numbered.setTrack isSet).1
  | createKeyframe command =>
      exact .backTo numbered fun scene isBack =>
        CreateKeyframe.names_back numbered isBack
  | removeKeyframe command =>
      exact .backTo numbered fun scene isBack =>
        RemoveKeyframe.names_back numbered isBack
  | setInterpolation command =>
      refine .backTo numbered fun scene isBack => ?_
      split at isBack
      · exact (SetInterpolation.names_store numbered isBack).1
      · cases isBack
        exact numbered
  | moveKeyframes command =>
      exact ⟨rfl, rfl,
        MoveKeyframes.names_storeAll numbered command.previous.reverse⟩
  | editPath command =>
      rw [Edit.revert, EditPath.revert]
      split
      · exact ⟨rfl, rfl, numbered⟩
      · exact .backTo numbered fun scene isSet =>
          (EditPath.names_setGeometry numbered isSet).1
  | reparent command =>
      exact ⟨rfl, rfl, Reparent.names_unwind numbered command.previous⟩
  | addOwners command => exact .back numbered remembered
  | removeOwners command => exact .back numbered remembered
  | copyObjects command =>
      exact .back numbered (List.forall_mem_append.1 remembered).2
  | convert command =>
      exact .back numbered (List.forall_mem_append.1 remembered).2

end Edit

/-! ## Groups -/

namespace Entry

variable {document : Document}

mutual

theorem reverts
    (entry : Entry Edit)
    {document : Document}
    (numbered : document.Numbered)
    (filed : ∀ edit ∈ entry.commands, edit.Filed document.nextId) :
    Edit.Reverts entry document (entry.revert document) := by
  match entry with
  | single edit =>
      have isFiled := filed edit List.mem_cons_self
      have reverts :=
        Edit.reverts numbered (List.forall_mem_append.1 isFiled.recorded).2
      exact ⟨congrArg single reverts.command, reverts.nextId, reverts.numbered⟩
  | group label parts =>
      have reverts := reverts_parts parts numbered filed
      exact ⟨congrArg (group label) reverts.command, reverts.nextId,
        reverts.numbered⟩

theorem reverts_parts
    (parts : List (Entry Edit))
    {document : Document}
    (numbered : document.Numbered)
    (filed : ∀ edit ∈ commandsOf parts, edit.Filed document.nextId) :
    Edit.Reverts parts document (revertParts parts document) := by
  match parts with
  | [] => exact ⟨rfl, rfl, numbered⟩
  | part :: rest =>
      obtain ⟨partFiled, restFiled⟩ := List.forall_mem_append.1 filed
      have later := reverts_parts rest numbered restFiled
      rw [revertParts]
      simp only
      split
      · exact ⟨congrArg (part :: ·) later.command, later.nextId, later.numbered⟩
      · have step := reverts part later.numbered (later.nextId.symm ▸ partFiled)
        exact ⟨congrArg₂ List.cons step.command later.command,
          step.nextId.trans later.nextId, step.numbered⟩

end

theorem reverts_rollback
    {applied : List (Entry Edit)}
    (numbered : document.Numbered)
    (filed : ∀ edit ∈ commandsOf applied, edit.Filed document.nextId) :
    Edit.Reverts applied document (rollback applied document) := by
  induction applied generalizing document with
  | nil => exact ⟨rfl, rfl, numbered⟩
  | cons part rest inductionHypothesis =>
      obtain ⟨partFiled, restFiled⟩ := List.forall_mem_append.1 filed
      have step := reverts part numbered partFiled
      rw [rollback]
      simp only
      split
      · exact ⟨congrArg (· :: rest) step.command, step.nextId, step.numbered⟩
      · have earlier :=
          inductionHypothesis step.numbered (step.nextId.symm ▸ restFiled)
        exact ⟨congrArg₂ List.cons step.command earlier.command,
          earlier.nextId.trans step.nextId, earlier.numbered⟩

/-- What carrying entries out does to the numbers of a document. -/
structure Advances
    (before : List Edit)
    (document : Document)
    (result : Except Fault Outcome)
    (after : List Edit)
    (state : Document) : Prop where
  later : document.nextId ≤ state.nextId
  steady : (∀ edit ∈ before, edit.Filed document.nextId) →
    state.nextId = document.nextId
  numbered : state.Numbered
  filed :
    (result = .ok .changed ∨ ∀ edit ∈ before, edit.Filed document.nextId) →
    ∀ edit ∈ after, edit.Filed state.nextId

theorem advances_single
    {edit : Edit}
    (numbered : document.Numbered)
    (ready : edit.Ready document.nextId) :
    Advances [edit] document (edit.apply document).result
      [(edit.apply document).command] (edit.apply document).state := by
  have advances := Edit.advances numbered ready
  refine ⟨advances.later,
    fun filed => advances.steady (filed edit List.mem_cons_self).done,
    advances.numbered, fun reason =>
      List.forall_mem_singleton.2 ⟨advances.done ?_, ?_⟩⟩
  · exact reason.imp_right fun filed => (filed edit List.mem_cons_self).done
  · refine List.forall_mem_append.2 ⟨?_, advances.remembered⟩
    rw [advances.request]
    rcases reason with changed | filed
    · exact advances.addressed changed
    · intro id member
      have recorded := (filed edit List.mem_cons_self).recorded
      exact ((List.forall_mem_append.1 recorded).1 id member).mono
        advances.later

mutual

theorem advances
    (entry : Entry Edit)
    {document : Document}
    (numbered : document.Numbered)
    (ready : ∀ edit ∈ entry.commands, edit.Ready document.nextId) :
    Advances entry.commands document (entry.apply document).result
      (entry.apply document).command.commands (entry.apply document).state := by
  match entry with
  | single edit =>
      exact advances_single numbered (ready edit List.mem_cons_self)
  | group label parts =>
      obtain ⟨later, steady, isNumbered, filed⟩ :=
        advances_parts parts [] numbered ready (List.forall_mem_nil _)
      exact ⟨later, steady, isNumbered, fun _ => filed⟩

/-- A group keeps only parts that changed something, so they can be filed. -/
theorem advances_parts
    (parts applied : List (Entry Edit))
    {document : Document}
    (numbered : document.Numbered)
    (ready : ∀ edit ∈ commandsOf parts, edit.Ready document.nextId)
    (filed : ∀ edit ∈ commandsOf applied, edit.Filed document.nextId) :
    let step := applyParts parts applied document
    document.nextId ≤ step.state.nextId ∧
      ((∀ edit ∈ commandsOf parts, edit.Filed document.nextId) →
        step.state.nextId = document.nextId) ∧
      step.state.Numbered ∧ ∀ edit ∈ commandsOf step.command,
        edit.Filed step.state.nextId := by
  match parts with
  | [] =>
      refine ⟨Nat.le_refl _, fun _ => rfl, numbered, ?_⟩
      exact forall_mem_commandsOf_iff.2 fun part isPart =>
        forall_mem_commandsOf_iff.1 filed part (List.mem_reverse.1 isPart)
  | part :: rest =>
      obtain ⟨partReady, restReady⟩ := List.forall_mem_append.1 ready
      have step := advances part numbered partReady
      have appliedFiled : ∀ edit ∈ commandsOf applied,
          edit.Filed (part.apply document).state.nextId :=
        fun edit member => (filed edit member).mono step.later
      have restReadyLater : ∀ edit ∈ commandsOf rest,
          edit.Ready (part.apply document).state.nextId :=
        fun edit member => (restReady edit member).mono step.later
      intro last
      have isLast : last = applyParts (part :: rest) applied document := rfl
      rw [applyParts] at isLast
      simp only at isLast
      cases outcome : (part.apply document).result with
      | ok result =>
          -- Whether the part is kept or not, the others go on from what it
          -- left.
          obtain ⟨kept, keptFiled, isRest⟩ : ∃ kept,
              (∀ edit ∈ commandsOf kept,
                edit.Filed (part.apply document).state.nextId) ∧
                last = applyParts rest kept (part.apply document).state := by
            rw [outcome] at isLast
            cases result with
            | changed =>
                refine ⟨(part.apply document).command :: applied, ?_, isLast⟩
                exact List.forall_mem_append.2
                  ⟨step.filed (Or.inl outcome), appliedFiled⟩
            | noop => exact ⟨applied, appliedFiled, isLast⟩
          obtain ⟨later, steady, isNumbered, allFiled⟩ :=
            advances_parts rest kept step.numbered restReadyLater keptFiled
          rw [← isRest] at later steady isNumbered allFiled
          refine ⟨step.later.trans later, fun partsFiled => ?_,
            isNumbered, allFiled⟩
          obtain ⟨partFiled, restFiled⟩ := List.forall_mem_append.1 partsFiled
          have same := step.steady partFiled
          rw [steady (same.symm ▸ restFiled), same]
      | error fault =>
          have undone := reverts_rollback step.numbered appliedFiled
          have same : last.state =
              (rollback applied (part.apply document).state).state := by
            rw [isLast, outcome]
            simp only
            split <;> rfl
          rw [same, undone.nextId]
          refine ⟨step.later, fun partsFiled => ?_, undone.numbered, ?_⟩
          · exact step.steady (List.forall_mem_append.1 partsFiled).1
          · rw [isLast, outcome]
            simp only
            split
            · rw [undone.command]
              exact forall_mem_commandsOf_iff.2 fun part isPart =>
                forall_mem_commandsOf_iff.1 appliedFiled part
                  (List.mem_reverse.1 isPart)
            · exact List.forall_mem_nil _

end

end Entry
end MotionScene
