import MotionScene.Editor
import MotionScene.Proofs.Command.Replaying
import MotionScene.Proofs.History.Timeline

/-!
# Runs of an editor

Whatever is done with a document, one action after the other, its history goes
along a timeline of well-formed scenes.  Undo and redo only move along the
timeline, and a recorded entry or the end of the outermost group adds a scene to
it.
-/

namespace MotionScene

/-- What can be done with an open document. -/
inductive Action where
  | push (entry : Entry Edit)
  | beginGroup (label : String)
  | endGroup (token : ScopeToken)
  | undo
  | redo
  | createOwner (kind : OwnerKind)
  | moveClock (move : Clock → Clock)

/-- Entries are made of edits that are admissible when they are carried out. -/
def Action.Admissible (editor : Editor Edit) : Action → Prop
  | push entry => entry.Admissible editor.document
  | _ => True

namespace Editor

/-- The editor after an action, whether it succeeded or was refused. -/
def perform (editor : Editor Edit) : Action → Editor Edit
  | .push entry => (editor.push entry).1
  | .beginGroup label =>
      match editor.beginGroup label with
      | .ok (after, _) => after
      | .error _ => editor
  | .endGroup token =>
      match editor.endGroup token with
      | .ok (after, _) => after
      | .error _ => editor
  | .undo => editor.undo.1
  | .redo => editor.redo.1
  | .createOwner kind =>
      match editor.createOwner kind with
      | .ok (after, _) => after
      | .error _ => editor
  | .moveClock move => editor.moveClock move

/-- The editor after a number of actions. -/
def run (editor : Editor Edit) : List Action → Editor Edit
  | [] => editor
  | action :: rest => (editor.perform action).run rest

/-- Every action is admissible when its turn comes. -/
def Admits (editor : Editor Edit) : List Action → Prop
  | [] => True
  | action :: rest =>
    action.Admissible editor ∧ (editor.perform action).Admits rest

theorem run_append (editor : Editor Edit) (first second : List Action) :
    editor.run (first ++ second) = (editor.run first).run second := by
  induction first generalizing editor with
  | nil => rfl
  | cons action rest inductionHypothesis =>
      exact inductionHypothesis (editor.perform action)

end Editor

namespace Timeline

/-- The timeline after an action.  A state is added when an entry changed the
document and no group is open, and when the outermost group is closed and has
parts. -/
def advance (timeline : Timeline) (editor : Editor Edit) : Action → Timeline
  | .push entry =>
      match editor.push entry with
      | (after, .ok .changed) =>
          if editor.history.isRecording then timeline
          else timeline.record editor.history.maxEntries after.document.scene
      | _ => timeline
  | .endGroup token =>
      match editor.endGroup token with
      | .ok (after, .changed) =>
          if after.history.isRecording then timeline
          else timeline.record editor.history.maxEntries after.document.scene
      | _ => timeline
  | .undo => if editor.history.isRecording then timeline else timeline.back
  | .redo => if editor.history.isRecording then timeline else timeline.forth
  | .beginGroup _ | .createOwner _ | .moveClock _ => timeline

/-- The timeline after a number of actions. -/
def advanceAll (timeline : Timeline) (editor : Editor Edit) :
    List Action → Timeline
  | [] => timeline
  | action :: rest =>
    (timeline.advance editor action).advanceAll (editor.perform action) rest

end Timeline

namespace Editor

/-- The document is well-formed, and the history goes along the timeline. -/
structure Follows (editor : Editor Edit) (timeline : Timeline) : Prop where
  wellFormed : editor.document.WellFormed
  history : editor.history.Follows editor.document timeline

variable {editor : Editor Edit} {timeline : Timeline}

theorem follows_ofDocument
    (settings : Settings)
    {document : Document}
    (wellFormed : document.WellFormed) :
    (ofDocument settings document).Follows (.start document.scene) :=
  ⟨wellFormed, History.follows_new settings.history wellFormed⟩

/-! ## What each action does -/

/-- Why nothing is replayed while a group is open. -/
def busy : Fault :=
  .groupState "undo and redo are unavailable while a macro is open"

/-- The editor elsewhere in its history. -/
def moved
    (editor : Editor Edit)
    (cursor : Nat)
    (scene : Scene) : Editor Edit :=
  { editor with
    document := { editor.document with scene }
    history := { editor.history with cursor } }

theorem isRecording_iff {history : History Edit} :
    history.isRecording = false ↔ history.scopes = [] := by
  rw [History.isRecording, Bool.not_eq_false', List.isEmpty_iff]

theorem isRecording_record (history : History Edit) (entry : Entry Edit) :
    (history.record entry).isRecording = history.isRecording := by
  cases isOpen : history.scopes with
  | nil =>
      rw [History.record_of_idle isOpen]
      rfl
  | cons scope outer =>
      rw [History.record_of_open isOpen, History.isRecording,
        History.isRecording, isOpen]
      rfl

/-- The innermost group is closed with its token: it leaves no trace if it is
empty, and becomes an entry otherwise. -/
theorem endGroup_of_open
    {scope : Scope Edit}
    {outer : List (Scope Edit)}
    (isOpen : editor.history.scopes = scope :: outer)
    {token : ScopeToken}
    (isToken : token.depth = editor.history.scopes.length) :
    let closed := { editor.history with scopes := outer }
    editor.endGroup token = .ok
      (if scope.parts.isEmpty then ({ editor with history := closed }, .noop)
      else ({ editor with history := closed.record scope.entry },
        .changed)) := by
  rw [Editor.endGroup, History.endGroup]
  simp only [isToken, ne_eq, not_true_eq_false, if_false]
  simp only [isOpen]
  split <;> rfl

/-- Closing a group is refused, or closes the innermost one. -/
theorem endGroup_cases (editor : Editor Edit) (token : ScopeToken) :
    (∃ fault, editor.endGroup token = .error fault) ∨
      ∃ scope outer, editor.history.scopes = scope :: outer ∧
        token.depth = editor.history.scopes.length := by
  by_cases isToken : token.depth = editor.history.scopes.length
  · cases isOpen : editor.history.scopes with
    | nil =>
        left
        rw [Editor.endGroup, History.endGroup]
        simp only [isToken, ne_eq, not_true_eq_false, if_false]
        simp only [isOpen]
        exact ⟨_, rfl⟩
    | cons scope outer => exact Or.inr ⟨scope, outer, rfl, isOpen ▸ isToken⟩
  · left
    rw [Editor.endGroup, History.endGroup]
    simp only [ne_eq, isToken, not_false_eq_true, if_true]
    exact ⟨_, rfl⟩

namespace Follows

theorem push
    (follows : editor.Follows timeline)
    {entry : Entry Edit}
    (admissible : entry.Admissible editor.document) :
    (editor.perform (.push entry)).Follows
      (timeline.advance editor (.push entry)) := by
  have lawful := entry.lawful follows.wellFormed admissible
  rw [perform, Timeline.advance, Editor.push, History.push,
    follows.history.checkUsable]
  dsimp only
  generalize entry.apply editor.document = step at lawful ⊢
  cases lawful with
  | changed command scene nextId later wellFormed leads =>
      exact ⟨wellFormed, follows.history.record later leads wellFormed⟩
  | idle command nextId later =>
      exact ⟨follows.wellFormed.later later, follows.history.meanwhile later _⟩
  | failed command nextId later fault =>
      exact ⟨follows.wellFormed.later later, follows.history.meanwhile later _⟩

theorem beginGroup (follows : editor.Follows timeline) (label : String) :
    (editor.perform (.beginGroup label)).Follows timeline := by
  rw [perform, Editor.beginGroup, History.beginGroup,
    follows.history.checkUsable]
  exact ⟨follows.wellFormed, follows.history.opened label⟩

theorem endGroup (follows : editor.Follows timeline) (token : ScopeToken) :
    (editor.perform (.endGroup token)).Follows
      (timeline.advance editor (.endGroup token)) := by
  rw [perform, Timeline.advance]
  rcases editor.endGroup_cases token with
    ⟨fault, refused⟩ | ⟨scope, outer, isOpen, isToken⟩
  · rw [refused]
    exact follows
  · obtain ⟨middle, runs, closed⟩ := follows.history.closed isOpen
    rw [endGroup_of_open isOpen isToken]
    cases isEmpty : scope.parts.isEmpty with
    | true =>
        rw [List.isEmpty_iff.1 isEmpty] at runs
        obtain rfl := runs.eq_of_nil
        exact ⟨follows.wellFormed, closed⟩
    | false =>
        have recorded :=
          closed.record (Nat.le_refl _) (Scope.leads_entry runs isEmpty)
            follows.wellFormed
        rw [← isRecording_record _ scope.entry] at recorded
        exact ⟨follows.wellFormed, recorded⟩

theorem checkIdle_of_open
    (follows : editor.Follows timeline)
    (isOpen : editor.history.isRecording = true) :
    editor.history.checkIdle = .error busy := by
  rw [History.checkIdle, follows.history.checkUsable, isOpen]
  rfl

/-- The editor can be anywhere on its timeline. -/
theorem moved
    (follows : editor.Follows timeline)
    (idle : editor.history.scopes = [])
    {cursor : Nat}
    (inRange : cursor ≤ editor.history.entries.length)
    {scene : Scene}
    (isScene : timeline.states[cursor]? = some scene) :
    (editor.moved cursor scene).Follows { timeline with cursor } := by
  have history := follows.history.moved idle inRange isScene
  exact ⟨history.wellFormed scene (List.mem_of_getElem? isScene), history⟩

/-- Undo is refused while a group is open and at the first state; otherwise it
leads to the state before. -/
theorem undo_cases (follows : editor.Follows timeline) :
    (editor.history.isRecording = true ∧ editor.undo = (editor, .error busy)) ∨
      (editor.history.scopes = [] ∧ editor.history.cursor = 0 ∧
        editor.undo = (editor, .error .nothingToUndo)) ∨
      ∃ earlier before, editor.history.scopes = [] ∧
        editor.history.cursor = earlier + 1 ∧
        editor.undo = (editor.moved earlier before, .ok ()) ∧
        (editor.moved earlier before).Follows
          { timeline with cursor := earlier } := by
  cases isOpen : editor.history.isRecording with
  | true =>
      refine Or.inl ⟨rfl, ?_⟩
      rw [Editor.undo, History.undo, follows.checkIdle_of_open isOpen]
      rfl
  | false =>
      have idle := isRecording_iff.1 isOpen
      have inRange := follows.history.inRange
      cases isCursor : editor.history.cursor with
      | zero =>
          refine Or.inr (Or.inl ⟨idle, rfl, ?_⟩)
          rw [Editor.undo, History.undo, follows.history.checkIdle idle]
          simp only [isCursor, if_true]
          rfl
      | succ earlier =>
          obtain ⟨before, isBefore, isUndone⟩ :=
            follows.history.undo idle isCursor
          exact Or.inr (Or.inr ⟨earlier, before, idle, rfl,
            congrArg editor.follow isUndone,
            follows.moved idle (by omega) isBefore⟩)

/-- Redo is refused while a group is open and at the last state; otherwise it
leads to the state after. -/
theorem redo_cases (follows : editor.Follows timeline) :
    (editor.history.isRecording = true ∧ editor.redo = (editor, .error busy)) ∨
      (editor.history.scopes = [] ∧
        editor.history.cursor = editor.history.entries.length ∧
        editor.redo = (editor, .error .nothingToRedo)) ∨
      ∃ after, editor.history.scopes = [] ∧
        editor.history.cursor < editor.history.entries.length ∧
        editor.redo = (editor.moved (editor.history.cursor + 1) after, .ok ()) ∧
        (editor.moved (editor.history.cursor + 1) after).Follows
          { timeline with cursor := editor.history.cursor + 1 } := by
  cases isOpen : editor.history.isRecording with
  | true =>
      refine Or.inl ⟨rfl, ?_⟩
      rw [Editor.redo, History.redo, follows.checkIdle_of_open isOpen]
      rfl
  | false =>
      have idle := isRecording_iff.1 isOpen
      rcases Nat.eq_or_lt_of_le follows.history.inRange with atEnd | inside
      · refine Or.inr (Or.inl ⟨idle, atEnd, ?_⟩)
        rw [Editor.redo, History.redo, follows.history.checkIdle idle]
        simp only [atEnd, if_true]
        rfl
      · obtain ⟨after, isAfter, isRedone⟩ := follows.history.redo idle inside
        exact Or.inr (Or.inr ⟨after, idle, inside,
          congrArg editor.follow isRedone, follows.moved idle inside isAfter⟩)

theorem undo (follows : editor.Follows timeline) :
    (editor.perform .undo).Follows (timeline.advance editor .undo) := by
  have cursor := follows.history.cursor
  rw [perform, Timeline.advance]
  rcases follows.undo_cases with ⟨isOpen, refused⟩ | ⟨idle, isCursor, refused⟩ |
    ⟨earlier, before, idle, isCursor, isUndone, moved⟩
  · rw [refused, if_pos isOpen]
    exact follows
  · rw [isCursor] at cursor
    rw [refused, isRecording_iff.2 idle, Timeline.back_of_zero cursor]
    exact follows
  · rw [isCursor] at cursor
    rw [isUndone, isRecording_iff.2 idle, Timeline.back_of_succ cursor]
    exact moved

theorem redo (follows : editor.Follows timeline) :
    (editor.perform .redo).Follows (timeline.advance editor .redo) := by
  have length := follows.history.pass.length
  have cursor := follows.history.cursor
  rw [perform, Timeline.advance]
  rcases follows.redo_cases with ⟨isOpen, refused⟩ | ⟨idle, atEnd, refused⟩ |
    ⟨after, idle, inside, isRedone, moved⟩
  · rw [refused, if_pos isOpen]
    exact follows
  · rw [refused, isRecording_iff.2 idle, Timeline.forth_of_last (by omega)]
    exact follows
  · rw [isRedone, isRecording_iff.2 idle,
      Timeline.forth_of_lt (by omega), cursor]
    exact moved

theorem createOwner (follows : editor.Follows timeline) (kind : OwnerKind) :
    (editor.perform (.createOwner kind)).Follows timeline := by
  rw [Editor.perform, Editor.createOwner]
  rcases isCreated : editor.document.createOwner kind with
    fault | ⟨after, owner⟩
  · exact follows
  · obtain ⟨_, rfl, _⟩ := Document.createOwner_eq_ok_iff.1 isCreated
    exact ⟨follows.wellFormed.later (Nat.le_succ _),
      follows.history.meanwhile (Nat.le_succ _) _⟩

/-- Whatever is done, the history goes along the timeline. -/
theorem perform
    (follows : editor.Follows timeline)
    {action : Action}
    (admissible : action.Admissible editor) :
    (editor.perform action).Follows (timeline.advance editor action) := by
  cases action with
  | push entry => exact follows.push admissible
  | beginGroup label => exact follows.beginGroup label
  | endGroup token => exact follows.endGroup token
  | undo => exact follows.undo
  | redo => exact follows.redo
  | createOwner kind => exact follows.createOwner kind
  | moveClock move =>
      exact ⟨⟨follows.wellFormed.scene, follows.wellFormed.numbers⟩,
        follows.history.meanwhile (Nat.le_refl _) _⟩

theorem run
    (follows : editor.Follows timeline)
    {actions : List Action}
    (admitted : editor.Admits actions) :
    (editor.run actions).Follows (timeline.advanceAll editor actions) := by
  induction actions generalizing editor timeline with
  | nil => exact follows
  | cons action rest inductionHypothesis =>
      exact inductionHypothesis (follows.perform admitted.1) admitted.2

/-! ## Where the editor stands -/

theorem present
    (follows : editor.Follows timeline)
    (idle : editor.history.scopes = []) :
    timeline.states[timeline.cursor]? = some editor.document.scene := by
  rw [follows.history.cursor]
  exact follows.history.present_of_idle idle

theorem undo_result (follows : editor.Follows timeline) :
    editor.undo.2 =
      if editor.history.isRecording then .error busy
      else if timeline.cursor = 0 then .error .nothingToUndo else .ok () := by
  rw [follows.history.cursor]
  rcases follows.undo_cases with ⟨isOpen, refused⟩ | ⟨idle, isCursor, refused⟩ |
    ⟨earlier, before, idle, isCursor, isUndone, _⟩
  · rw [refused, if_pos isOpen]
  · rw [refused, isRecording_iff.2 idle, isCursor]
    rfl
  · rw [isUndone, isRecording_iff.2 idle, isCursor]
    rfl

theorem redo_result (follows : editor.Follows timeline) :
    editor.redo.2 =
      if editor.history.isRecording then .error busy
      else if timeline.cursor + 1 = timeline.states.length then
        .error .nothingToRedo
      else .ok () := by
  rw [follows.history.cursor, follows.history.pass.length]
  rcases follows.redo_cases with ⟨isOpen, refused⟩ | ⟨idle, atEnd, refused⟩ |
    ⟨after, idle, inside, isRedone, _⟩
  · rw [refused, if_pos isOpen]
  · rw [refused, isRecording_iff.2 idle, if_pos (congrArg Nat.succ atEnd)]
    rfl
  · have notEnd : editor.history.cursor + 1 ≠
        editor.history.entries.length + 1 := by omega
    rw [isRedone, isRecording_iff.2 idle, if_neg notEnd]
    rfl

theorem undo_of_idle
    (follows : editor.Follows timeline)
    (idle : editor.history.scopes = []) :
    (editor.perform .undo).Follows timeline.back ∧
      (editor.perform .undo).history.scopes = [] := by
  have undone := follows.undo
  rw [Timeline.advance, isRecording_iff.2 idle] at undone
  refine ⟨undone, ?_⟩
  rw [Editor.perform]
  rcases follows.undo_cases with
    ⟨_, refused⟩ | ⟨_, _, refused⟩ | ⟨_, _, _, _, isUndone, _⟩
  · rw [refused, idle]
  · rw [refused, idle]
  · rw [isUndone]
    exact idle

/-- Redo after undo restores the editor, its history included. -/
theorem redo_undo
    (follows : editor.Follows timeline)
    (idle : editor.history.scopes = [])
    (inside : 0 < timeline.cursor) :
    (editor.perform .undo).perform .redo = editor := by
  rw [follows.history.cursor] at inside
  have inRange := follows.history.inRange
  rcases follows.undo_cases with ⟨isOpen, _⟩ | ⟨_, isCursor, _⟩ |
    ⟨earlier, before, _, isCursor, isUndone, undone⟩
  · cases isOpen.symm.trans (isRecording_iff.2 idle)
  · omega
  · rw [Editor.perform, isUndone]
    rcases undone.redo_cases with ⟨isOpen, _⟩ | ⟨_, atEnd, _⟩ |
      ⟨after, _, _, isRedone, redone⟩
    · cases isOpen.symm.trans (isRecording_iff.2 idle)
    · have isEarlier : earlier = editor.history.entries.length := atEnd
      omega
    · have present := follows.history.present_of_idle idle
      rw [isCursor] at present
      obtain rfl := Option.some.inj ((redone.present idle).symm.trans present)
      rw [Editor.perform, isRedone]
      change editor.moved (earlier + 1) editor.document.scene = editor
      rw [← isCursor]
      rfl

/-- Going back a number of states leads to the state there, and going forth
again restores the editor. -/
theorem there_and_back
    (follows : editor.Follows timeline)
    (idle : editor.history.scopes = [])
    {count : Nat}
    (inside : count ≤ timeline.cursor) :
    timeline.states[timeline.cursor - count]? =
        some (editor.run (List.replicate count .undo)).document.scene ∧
      (editor.run (List.replicate count .undo)).run
          (List.replicate count .redo) = editor := by
  induction count generalizing editor timeline with
  | zero => exact ⟨follows.present idle, rfl⟩
  | succ count inductionHypothesis =>
      obtain ⟨undone, stillIdle⟩ := follows.undo_of_idle idle
      have position :
          timeline.back.cursor - count = timeline.cursor - (count + 1) := by
        rw [Timeline.back, Nat.sub_sub, Nat.add_comm]
      obtain ⟨isState, restored⟩ :=
        inductionHypothesis undone stillIdle (Nat.le_sub_one_of_lt inside)
      rw [position] at isState
      refine ⟨isState, ?_⟩
      rw [List.replicate_succ, Editor.run, List.replicate_succ',
        run_append, restored]
      exact follows.redo_undo idle (Nat.zero_lt_of_lt inside)

end Follows
end Editor

namespace Timeline

/-- What a timeline says about an editor. -/
structure Describes (timeline : Timeline) (editor : Editor Edit) : Prop where
  /-- There is one more state than there are entries. -/
  length : timeline.states.length = editor.history.size + 1
  cursor : timeline.cursor = editor.history.cursor
  /-- The document is in the present state, unless a group is open. -/
  present : editor.history.isRecording = false →
    timeline.states[timeline.cursor]? = some editor.document.scene
  /-- Undo is refused while a group is open and at the first state, and for no
  other reason. -/
  undo_result : editor.undo.2 =
    if editor.history.isRecording then .error Editor.busy
    else if timeline.cursor = 0 then .error .nothingToUndo else .ok ()
  /-- Redo is refused while a group is open and at the last state, and for no
  other reason. -/
  redo_result : editor.redo.2 =
    if editor.history.isRecording then .error Editor.busy
    else if timeline.cursor + 1 = timeline.states.length then
      .error .nothingToRedo
    else .ok ()
  intact : ∀ label reason,
    editor.undo.2 ≠ .error (.historyCorruption label reason) ∧
    editor.redo.2 ≠ .error (.historyCorruption label reason)
  /-- Going back leads through the states before, and going forth again restores
  the editor. -/
  there_and_back : editor.history.isRecording = false →
    ∀ count ≤ timeline.cursor,
    timeline.states[timeline.cursor - count]? =
        some (editor.run (List.replicate count .undo)).document.scene ∧
      (editor.run (List.replicate count .undo)).run
          (List.replicate count .redo) = editor

end Timeline

namespace Editor

theorem Follows.describes
    {editor : Editor Edit}
    {timeline : Timeline}
    (follows : editor.Follows timeline) :
    timeline.Describes editor := by
  refine ⟨?_, follows.history.cursor,
    fun idle => follows.present (isRecording_iff.1 idle), follows.undo_result,
    follows.redo_result, ?_,
    fun idle _ => follows.there_and_back (isRecording_iff.1 idle)⟩
  · exact follows.history.pass.length
  · intro label reason
    rw [follows.undo_result, follows.redo_result]
    constructor <;> (repeat' split) <;> nofun

/-- The history of a document is a timeline of its scenes, whatever is done with
the document. -/
theorem history_is_timeline
    (settings : Settings)
    {document : Document}
    (wellFormed : document.WellFormed)
    {actions : List Action}
    (admitted : (ofDocument settings document).Admits actions) :
    ((Timeline.start document.scene).advanceAll
      (ofDocument settings document) actions).Describes
      ((ofDocument settings document).run actions) :=
  ((follows_ofDocument settings wellFormed).run admitted).describes

/-- Draws, picks an owner in nested groups, fails to draw the same again, and
goes back and forth. -/
def session : List Action :=
  [.createOwner (.object .ellipse), .createOwner (.object .empty),
    .push (.drawing ⟨6⟩), .beginGroup "Edit", .beginGroup "Pick",
    .push (.single (.setSelection { selection := (∅ : OwnerSet).insert ⟨3⟩ })),
    .endGroup ⟨2⟩, .push (.drawing ⟨6⟩), .endGroup ⟨1⟩, .undo,
    .moveClock Clock.advance, .undo, .redo]

theorem session_admitted (editor : Editor Edit) : editor.Admits session :=
  ⟨trivial, trivial, Entry.drawing_admissible _ _, trivial, trivial,
    Edit.Fresh.admissible (.setSelection _) nofun _, trivial,
    Entry.drawing_admissible _ _, trivial, trivial, trivial, trivial,
    trivial, trivial⟩

/-- An editor of a new document that remembers one entry only. -/
def forgetful : Editor Edit :=
  ofDocument { history := { maxEntries := 1 } } (.new ⟨0⟩ {})

theorem session_timeline :
    ((Timeline.start forgetful.document.scene).advanceAll forgetful
      session).states.length = 2 ∧
      ((Timeline.start forgetful.document.scene).advanceAll forgetful
        session).Describes (forgetful.run session) :=
  ⟨rfl,
    history_is_timeline _ (Document.wellFormed_new ⟨0⟩ {}) (session_admitted _)⟩

/-- Whatever is done with a new document, its scene stays well-formed. -/
theorem scene_wellFormed_of_run
    (id : DocumentId)
    (settings : Settings)
    {actions : List Action}
    (admitted : (new id settings).Admits actions) :
    ((new id settings).run actions).document.scene.WellFormed :=
  ((follows_ofDocument settings (Document.wellFormed_new id settings)).run
    admitted).wellFormed.scene

theorem session_wellFormed :
    ((new ⟨0⟩ {}).run session).document.scene.contains ⟨6⟩ = true ∧
      ((new ⟨0⟩ {}).run session).document.scene.WellFormed :=
  ⟨rfl, scene_wellFormed_of_run ⟨0⟩ {} (session_admitted _)⟩

end Editor
end MotionScene
