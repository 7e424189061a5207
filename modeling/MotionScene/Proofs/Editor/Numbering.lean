import MotionScene.Proofs.Command.Filing
import MotionScene.Proofs.Editor.Running

/-!
# Numbers are never used again

The counter of a document is not taken back by undo, while owners come and go
with undo and redo.  It stays ahead of all owners that are registered and of all
that are recorded in the history, whatever is done with the document.  So no
number is given out that some owner has or may have again.
-/

namespace MotionScene

/-! ## Opened documents -/

namespace Document

/-- A document as it is opened: new, or loaded. -/
inductive Opened : Document → Prop where
  | new (id : DocumentId) (settings : Settings) :
      Opened (Document.new id settings)
  | loaded
      {snapshot : Snapshot}
      {settings : Settings}
      {document : Document}
      (accepted : ofSnapshot snapshot settings = .ok document) :
      Opened document

/-- A scene that passes validation names no owners but those it has. -/
theorem names_of_demands
    {scene : Scene}
    (demands : scene.Demands)
    {allowed : OwnerId → Prop}
    (isAllowed : ∀ id, scene.contains id = true → allowed id) :
    scene.Names allowed := by
  have known : ∀ {id category}, scene.categoryOf id = some category →
      allowed id :=
    fun isCategory => isAllowed _ (Scene.contains_of_categoryOf isCategory)
  refine ⟨fun id owner found =>
    Owner.forall_mem_named_iff.2 ⟨?_, ?_, ?_, ?_, ?_⟩,
    fun id member => known (demands.styles id member),
    fun id member => known (demands.tools id member),
    fun id member => isAllowed id (demands.selection id member)⟩
  · rw [scene.id_of_owner? found]
    exact isAllowed id (by simp [Scene.contains, found])
  · intro parent isParent
    exact known
      (demands.host_category
        (scene.parentOf_eq_some_iff.2 ⟨owner, found, isParent⟩))
  · intro child member
    have listed : child ∈ scene.entries (.children id) := by
      simpa [Scene.entries, found] using member
    exact known (demands.of_mem_children listed).1
  · intro tag member
    have listed : tag ∈ scene.entries (.tags id) := by
      simpa [Scene.entries, found] using member
    exact known (demands.of_mem_tags listed).1
  · intro target member
    obtain ⟨property, isProperty, refers⟩ := Owner.mem_targets_iff.1 member
    exact isAllowed target (demands.targets ⟨id, property.name, target⟩
      (Scene.references_iff.2
        ⟨owner, property, found, isProperty, rfl, refers⟩))

theorem Opened.numbered {document : Document} (opened : document.Opened) :
    document.Numbered := by
  cases opened with
  | new id settings =>
      have wellFormed := wellFormed_new id settings
      exact names_of_demands
        (Scene.tolerable_violations_iff.1 wellFormed.scene.1) wellFormed.numbers
  | loaded accepted =>
      obtain ⟨distinct, _, clean, rfl⟩ := ofSnapshot_eq_ok_iff.1 accepted
      refine names_of_demands (Scene.tolerable_violations_iff.1 ?_)
        (numbers_unchecked distinct _)
      rw [clean]
      exact Scene.tolerable_nil

end Document

/-! ## Histories -/

namespace History

/-- All entries of a history: those of the log, and the parts of open groups. -/
def allEntries (history : History Edit) : List (Entry Edit) :=
  history.entries ++ history.scopes.flatMap Scope.parts

/-- All edits of a history. -/
def edits (history : History Edit) : List Edit :=
  Entry.commandsOf history.allEntries

variable {history : History Edit} {entry : Entry Edit}

theorem mem_allEntries_iff :
    entry ∈ history.allEntries ↔
      entry ∈ history.entries ∨ ∃ scope ∈ history.scopes,
        entry ∈ scope.parts := by
  simp only [allEntries, List.mem_append, List.mem_flatMap]

/-- Recording an entry adds no other one. -/
theorem mem_allEntries_record
    {recorded : Entry Edit}
    (member : entry ∈ (history.record recorded).allEntries) :
    entry = recorded ∨ entry ∈ history.allEntries := by
  rw [mem_allEntries_iff] at member ⊢
  cases isOpen : history.scopes with
  | cons scope outer =>
      rw [record_of_open isOpen] at member
      rcases member with isLogged | ⟨inner, isScope, isPart⟩
      · exact Or.inr (Or.inl isLogged)
      · rcases List.mem_cons.1 isScope with rfl | isOuter
        · exact (List.mem_cons.1 isPart).imp_right fun older =>
            Or.inr ⟨scope, List.mem_cons_self, older⟩
        · exact Or.inr
            (Or.inr ⟨inner, List.mem_cons_of_mem scope isOuter, isPart⟩)
  | nil =>
      rw [record_of_idle isOpen, isOpen] at member
      rcases member with isLogged | ⟨inner, isScope, _⟩
      · rcases List.mem_append.1 (mem_of_mem_latest isLogged) with
          older | isLast
        · exact Or.inr (Or.inl (List.mem_of_mem_take older))
        · exact Or.inl (List.mem_singleton.1 isLast)
      · cases isScope

end History

/-! ## Actions -/

/-- Entries are made of edits as they are built. -/
def Action.Built : Action → Prop
  | push entry => ∀ edit ∈ entry.commands, edit.Fresh
  | beginGroup _ | endGroup _ | undo | redo | createOwner _ | moveClock _ =>
    True

/-- Nothing is done but what is in the history. -/
def Action.Replays : Action → Prop
  | push _ | createOwner _ => False
  | beginGroup _ | endGroup _ | undo | redo | moveClock _ => True

namespace Editor

/-- The counter is ahead of all owners that the scene names and of all that the
history records. -/
structure Numbered (editor : Editor Edit) : Prop where
  document : editor.document.Numbered
  filed : ∀ entry ∈ editor.history.allEntries, ∀ edit ∈ entry.commands,
    edit.Filed editor.document.nextId

variable {editor : Editor Edit}

theorem numbered_ofDocument
    (settings : Settings)
    {document : Document}
    (numbered : document.Numbered) :
    (ofDocument settings document : Editor Edit).Numbered :=
  ⟨numbered, fun _ member => absurd member List.not_mem_nil⟩

namespace Numbered

/-- What is filed stays so while numbers are given out. -/
theorem meanwhile
    (numbered : editor.Numbered)
    {document : Document}
    (isNumbered : document.Numbered)
    (later : editor.document.nextId ≤ document.nextId) :
    { editor with document }.Numbered :=
  ⟨isNumbered, fun entry member edit isEdit =>
    (numbered.filed entry member edit isEdit).mono later⟩

theorem record
    (numbered : editor.Numbered)
    {entry : Entry Edit}
    (filed : ∀ edit ∈ entry.commands, edit.Filed editor.document.nextId) :
    { editor with history := editor.history.record entry }.Numbered := by
  refine ⟨numbered.document, fun other member => ?_⟩
  rcases History.mem_allEntries_record member with rfl | older
  · exact filed
  · exact numbered.filed other older

theorem push
    (numbered : editor.Numbered)
    {entry : Entry Edit}
    (built : ∀ edit ∈ entry.commands, edit.Fresh) :
    (editor.perform (.push entry)).Numbered := by
  have step := entry.advances numbered.document fun edit member =>
    Or.inl (built edit member)
  rw [perform, Editor.push, History.push]
  cases editor.history.checkUsable with
  | error fault => exact numbered
  | ok _ =>
      simp only
      have after := numbered.meanwhile step.numbered step.later
      cases outcome : (entry.apply editor.document).result with
      | error fault => exact after
      | ok result =>
          cases result with
          | noop => exact after
          | changed => exact after.record (step.filed (Or.inl outcome))

theorem beginGroup (numbered : editor.Numbered) (label : String) :
    (editor.perform (.beginGroup label)).Numbered := by
  rw [perform, Editor.beginGroup, History.beginGroup]
  cases editor.history.checkUsable with
  | error fault => exact numbered
  | ok _ => exact ⟨numbered.document, numbered.filed⟩

/-- A group that is closed becomes an entry of its parts. -/
theorem endGroup (numbered : editor.Numbered) (token : ScopeToken) :
    (editor.perform (.endGroup token)).Numbered := by
  rw [perform]
  rcases editor.endGroup_cases token with
    ⟨fault, refused⟩ | ⟨scope, outer, isOpen, isToken⟩
  · rw [refused]
    exact numbered
  · have closed :
        { editor with
          history := { editor.history with scopes := outer } }.Numbered := by
      refine ⟨numbered.document, fun entry member => numbered.filed entry ?_⟩
      rw [History.mem_allEntries_iff] at member ⊢
      refine member.imp_right ?_
      rintro ⟨inner, isOuter, isPart⟩
      exact ⟨inner, isOpen ▸ List.mem_cons_of_mem scope isOuter, isPart⟩
    have parts : ∀ edit ∈ scope.entry.commands,
        edit.Filed editor.document.nextId := by
      refine Entry.forall_mem_commandsOf_iff.2
        fun part isPart => numbered.filed part ?_
      rw [History.mem_allEntries_iff, isOpen]
      exact Or.inr ⟨scope, List.mem_cons_self, List.mem_reverse.1 isPart⟩
    rw [endGroup_of_open isOpen isToken]
    cases scope.parts.isEmpty with
    | true => exact closed
    | false => exact closed.record parts

/-- The history with its log replaced: every entry is an old one, or is
filed. -/
theorem replaced
    (numbered : editor.Numbered)
    {document : Document}
    (isNumbered : document.Numbered)
    (later : editor.document.nextId ≤ document.nextId)
    {history : History Edit}
    (scopes : history.scopes = editor.history.scopes)
    (filed : ∀ entry ∈ history.entries, entry ∈ editor.history.entries ∨
      ∀ edit ∈ entry.commands, edit.Filed document.nextId) :
    { editor with document, history }.Numbered := by
  refine ⟨isNumbered, fun entry member => ?_⟩
  have older : entry ∈ editor.history.allEntries →
      ∀ edit ∈ entry.commands, edit.Filed document.nextId :=
    fun isEntry edit isEdit =>
      (numbered.filed entry isEntry edit isEdit).mono later
  rw [History.mem_allEntries_iff] at older
  rw [History.mem_allEntries_iff, scopes] at member
  rcases member with isLogged | isPart
  · exact (filed entry isLogged).elim (fun isOld => older (Or.inl isOld)) id
  · exact older (Or.inr isPart)

theorem undo (numbered : editor.Numbered) :
    (editor.perform .undo).Numbered ∧
      (editor.perform .undo).document.nextId = editor.document.nextId := by
  rw [perform, Editor.undo, History.undo]
  cases editor.history.checkIdle with
  | error fault => exact ⟨numbered, rfl⟩
  | ok _ =>
      simp only
      split
      · exact ⟨numbered, rfl⟩
      cases isEntry : editor.history.entryAt (editor.history.cursor - 1) with
      | error fault => exact ⟨numbered, rfl⟩
      | ok entry =>
          rw [History.entryAt_eq_ok_iff] at isEntry
          have filed := numbered.filed entry (History.mem_allEntries_iff.2
            (Or.inl (List.mem_of_getElem? isEntry)))
          obtain ⟨same, nextId, isNumbered⟩ :=
            entry.reverts numbered.document filed
          have later := Nat.le_of_eq nextId.symm
          simp only [same, History.replace_self isEntry]
          cases (entry.revert editor.document).result <;>
            exact ⟨numbered.replaced isNumbered later rfl
              fun _ => Or.inl, nextId⟩

theorem redo (numbered : editor.Numbered) :
    (editor.perform .redo).Numbered ∧
      (editor.perform .redo).document.nextId = editor.document.nextId := by
  rw [perform, Editor.redo, History.redo]
  cases editor.history.checkIdle with
  | error fault => exact ⟨numbered, rfl⟩
  | ok _ =>
      simp only
      split
      · exact ⟨numbered, rfl⟩
      cases isEntry : editor.history.entryAt editor.history.cursor with
      | error fault => exact ⟨numbered, rfl⟩
      | ok entry =>
          rw [History.entryAt_eq_ok_iff] at isEntry
          have filed := numbered.filed entry (History.mem_allEntries_iff.2
            (Or.inl (List.mem_of_getElem? isEntry)))
          have step := entry.advances numbered.document fun edit member =>
            Or.inr (filed edit member)
          have again :
              ∀ other ∈ editor.history.entries.set editor.history.cursor
              (entry.apply editor.document).command,
              other ∈ editor.history.entries ∨ ∀ edit ∈ other.commands,
                edit.Filed (entry.apply editor.document).state.nextId := by
            intro other member
            rcases List.mem_or_eq_of_mem_set member with isOld | rfl
            · exact Or.inl isOld
            · exact Or.inr (step.filed (Or.inr filed))
          simp only
          cases (entry.apply editor.document).result <;>
            exact ⟨numbered.replaced step.numbered step.later rfl again,
              step.steady filed⟩

theorem createOwner (numbered : editor.Numbered) (kind : OwnerKind) :
    (editor.perform (.createOwner kind)).Numbered := by
  rw [perform, Editor.createOwner]
  rcases isCreated : editor.document.createOwner kind with
    fault | ⟨after, owner⟩
  · exact numbered
  · obtain ⟨_, rfl, _⟩ := Document.createOwner_eq_ok_iff.1 isCreated
    have later : editor.document.nextId ≤ editor.document.nextId + 1 :=
      Nat.le_succ _
    exact numbered.meanwhile
      (numbered.document.mono fun _ below => below.mono later) later

/-- Whatever is done, the counter stays ahead. -/
theorem perform
    (numbered : editor.Numbered)
    {action : Action}
    (built : action.Built) :
    (editor.perform action).Numbered := by
  cases action with
  | push entry => exact numbered.push built
  | beginGroup label => exact numbered.beginGroup label
  | endGroup token => exact numbered.endGroup token
  | undo => exact numbered.undo.1
  | redo => exact numbered.redo.1
  | createOwner kind => exact numbered.createOwner kind
  | moveClock move => exact ⟨numbered.document, numbered.filed⟩

theorem run
    (numbered : editor.Numbered)
    {actions : List Action}
    (built : ∀ action ∈ actions, action.Built) :
    (editor.run actions).Numbered := by
  induction actions generalizing editor with
  | nil => exact numbered
  | cons action rest inductionHypothesis =>
      rw [List.forall_mem_cons] at built
      exact inductionHypothesis (numbered.perform built.1) built.2

/-- The history gives no numbers out. -/
theorem nextId_replayed
    (numbered : editor.Numbered)
    {action : Action}
    (replays : action.Replays) :
    (editor.perform action).document.nextId = editor.document.nextId := by
  cases action with
  | push entry => cases replays
  | beginGroup label =>
      rw [Editor.perform, Editor.beginGroup, History.beginGroup]
      cases editor.history.checkUsable <;> rfl
  | endGroup token =>
      rw [Editor.perform]
      rcases editor.endGroup_cases token with
        ⟨fault, refused⟩ | ⟨scope, outer, isOpen, isToken⟩
      · rw [refused]
      · rw [endGroup_of_open isOpen isToken]
        cases scope.parts.isEmpty <;> rfl
  | undo => exact numbered.undo.2
  | redo => exact numbered.redo.2
  | createOwner kind => cases replays
  | moveClock move => rfl

theorem replayed
    (numbered : editor.Numbered)
    {actions : List Action}
    (replay : ∀ action ∈ actions, action.Replays) :
    (editor.run actions).Numbered ∧
      (editor.run actions).document.nextId = editor.document.nextId := by
  induction actions generalizing editor with
  | nil => exact ⟨numbered, rfl⟩
  | cons action rest inductionHypothesis =>
      rw [List.forall_mem_cons] at replay
      have built : action.Built := by
        cases action with
        | push entry => cases replay.1
        | _ => trivial
      obtain ⟨final, nextId⟩ :=
        inductionHypothesis (numbered.perform built) replay.2
      exact ⟨final, nextId.trans (numbered.nextId_replayed replay.1)⟩

/-- The counter never goes back. -/
theorem later_perform
    (numbered : editor.Numbered)
    {action : Action}
    (built : action.Built) :
    editor.document.nextId ≤ (editor.perform action).document.nextId := by
  cases action with
  | push entry =>
      have step := entry.advances numbered.document fun edit member =>
        Or.inl (built edit member)
      rw [Editor.perform, Editor.push, History.push]
      cases editor.history.checkUsable with
      | error fault => exact Nat.le_refl _
      | ok _ =>
          simp only
          split <;> exact step.later
  | createOwner kind =>
      rw [Editor.perform, Editor.createOwner]
      rcases isCreated : editor.document.createOwner kind with
        fault | ⟨after, owner⟩
      · exact Nat.le_refl _
      · obtain ⟨_, rfl, _⟩ := Document.createOwner_eq_ok_iff.1 isCreated
        exact Nat.le_succ _
  | beginGroup _ | endGroup _ | undo | redo | moveClock _ =>
      refine Nat.le_of_eq (Eq.symm (numbered.nextId_replayed ?_))
      trivial

theorem later_run
    (numbered : editor.Numbered)
    {actions : List Action}
    (built : ∀ action ∈ actions, action.Built) :
    editor.document.nextId ≤ (editor.run actions).document.nextId := by
  induction actions generalizing editor with
  | nil => exact Nat.le_refl _
  | cons action rest inductionHypothesis =>
      rw [List.forall_mem_cons] at built
      exact (numbered.later_perform built.1).trans
        (inductionHypothesis (numbered.perform built.1) built.2)

/-- The counter is ahead of all owners that there were at any time. -/
theorem known_earlier
    (numbered : editor.Numbered)
    {earlier actions : List Action}
    (built : ∀ action ∈ actions, action.Built)
    (isEarlier : earlier <+: actions)
    {id : OwnerId}
    (known : (editor.run earlier).document.scene.contains id = true) :
    id.number < (editor.run actions).document.nextId := by
  obtain ⟨rest, rfl⟩ := isEarlier
  obtain ⟨builtEarlier, builtRest⟩ := List.forall_mem_append.1 built
  have isNumbered := numbered.run builtEarlier
  rw [run_append]
  exact Nat.lt_of_lt_of_le (isNumbered.document.known known)
    (isNumbered.later_run builtRest)

end Numbered

/-- The next number after some actions is new: no owner has it or ever had it,
and none can get it back. -/
structure Ahead (start : Editor Edit) (actions : List Action) : Prop where
  /-- No owner that there is, or was at any time, has a number that is still to
  be given out. -/
  registered : ∀ earlier, earlier <+: actions → ∀ id,
    (start.run earlier).document.scene.contains id = true →
      id.number < (start.run actions).document.nextId
  /-- The history records no such number. -/
  recorded : ∀ edit ∈ (start.run actions).history.edits, ∀ id ∈ edit.recorded,
    id.number < (start.run actions).document.nextId
  /-- What an edit passes over may have such a number, if it is no owner and
  never was one. -/
  passedOver : ∀ edit ∈ (start.run actions).history.edits,
    ∀ id ∈ edit.passedOver,
    id.number < (start.run actions).document.nextId ∨
      ∀ earlier, earlier <+: actions →
        (start.run earlier).document.scene.contains id = false
  /-- Undo and redo bring back no owner with such a number. -/
  restored : ∀ replay, (∀ action ∈ replay, action.Replays) → ∀ id,
    ((start.run actions).run replay).document.scene.contains id = true →
      id.number < (start.run actions).document.nextId
  /-- A new owner gets the next number, unless there is none after that. -/
  created : ∀ kind,
    (OwnerId.limit ≤ (start.run actions).document.nextId + 1 ∧
      ∃ fault, (start.run actions).createOwner kind = .error fault) ∨
    ∃ after owner, (start.run actions).createOwner kind = .ok (after, owner) ∧
      owner.id.number = (start.run actions).document.nextId
  /-- Copies get numbers from the next one on, also when objects are copied
  later within a group. -/
  copied : ∀ command : CopyObjects, command.transition = none →
    ∀ document, (start.run actions).document.nextId ≤ document.nextId →
      ∀ id, (command.apply document).state.scene.contains id = true →
        document.scene.contains id = true ∨
          (start.run actions).document.nextId ≤ id.number
  /-- So do the paths that replace shapes. -/
  converted : ∀ command : Convert, command.transition = none →
    ∀ document, (start.run actions).document.nextId ≤ document.nextId →
      ∀ id, (command.apply document).state.scene.contains id = true →
        document.scene.contains id = true ∨
          (start.run actions).document.nextId ≤ id.number

theorem createOwner_cases (editor : Editor Edit) (kind : OwnerKind) :
    (OwnerId.limit ≤ editor.document.nextId + 1 ∧
      ∃ fault, editor.createOwner kind = .error fault) ∨
    ∃ after owner, editor.createOwner kind = .ok (after, owner) ∧
      owner.id.number = editor.document.nextId := by
  rw [Editor.createOwner]
  rcases isCreated : editor.document.createOwner kind with
    fault | ⟨after, owner⟩
  · refine Or.inl ⟨?_, fault, rfl⟩
    by_contra room
    rw [Nat.not_le] at room
    cases isCreated.symm.trans
      (Document.createOwner_eq_ok_iff.2 ⟨room, rfl, rfl⟩)
  · obtain ⟨_, _, rfl⟩ := Document.createOwner_eq_ok_iff.1 isCreated
    exact Or.inr ⟨_, _, rfl, rfl⟩

/-- Draws a rectangle, converts and copies it in a group, takes all that back,
creates another owner, and carries everything out again. -/
def reshaping : List Action :=
  [.createOwner (.object .rectangle),
    .push (.single (.addOwners
      { items := [⟨.ofKind ⟨3⟩ (.object .rectangle) {}, .child ⟨1⟩ 0⟩] })),
    .beginGroup "Reshape", .push (.single (.convert { targets := [⟨3⟩] })),
    .push
      (.single (.copyObjects { sources := [⟨4⟩], parent := ⟨1⟩, index := 1 })),
    .endGroup ⟨1⟩, .undo, .undo, .createOwner (.object .empty), .redo, .redo]

theorem reshaping_built : ∀ action ∈ reshaping, action.Built := by
  simp only [reshaping, List.forall_mem_cons, Action.Built, Entry.commands,
    List.not_mem_nil, false_implies, implies_true, and_true, true_and]
  exact ⟨.addOwners _, .convert _, .copyObjects _ _ _⟩

/-- Draws a rectangle and converts it, along with an owner that there is not. -/
def overreaching : List Action :=
  [.createOwner (.object .rectangle),
    .push (.single (.addOwners
      { items := [⟨.ofKind ⟨3⟩ (.object .rectangle) {}, .child ⟨1⟩ 0⟩] })),
    .push (.single (.convert { targets := [⟨3⟩, ⟨999⟩] }))]

end Editor
end MotionScene
