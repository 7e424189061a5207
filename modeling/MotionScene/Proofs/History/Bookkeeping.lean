import Mathlib.Tactic.ByContra
import MotionScene.Proofs.History.Log

/-!
# Bookkeeping of histories

Whatever is asked of a new history, and whatever carrying out and taking back
its entries comes to, the cursor stays inside the entries, no more of them are
kept than are allowed, and it can be told beforehand whether undo and redo come
to an entry.  A history that was given up stays as it is, and so does the state,
until it is cleared.
-/

namespace MotionScene
namespace History

variable {κ σ : Type} {history : History κ} {state : σ} {fault : Fault}

/-! ## What is refused -/

section Refused

theorem checkUsable_eq_ok_iff :
    history.checkUsable = .ok () ↔ history.corrupted = none := by
  rw [checkUsable]
  cases history.corrupted <;> simp

/-- A refusal by a history that was given up says why that was. -/
def Explains (history : History κ) (fault : Fault) : Prop :=
  ∀ reason, history.corrupted = some reason →
    fault = .historyCorruption "history" reason

theorem checkIdle_eq_ok_iff :
    history.checkIdle = .ok () ↔
      history.corrupted = none ∧ history.scopes = [] := by
  rw [checkIdle, checkUsable, isRecording]
  cases history.corrupted <;> cases history.scopes <;>
    simp [bind, Except.bind, pure, Except.pure]

theorem explains_of_idle (idle : history.checkIdle = .ok ()) (fault : Fault) :
    history.Explains fault := by
  intro reason corrupted
  rw [(checkIdle_eq_ok_iff.1 idle).1] at corrupted
  cases corrupted

theorem explains_of_checkIdle (refused : history.checkIdle = .error fault) :
    history.Explains fault := by
  intro reason corrupted
  rw [checkIdle, checkUsable, corrupted] at refused
  exact (Except.error.inj refused).symm

theorem canUndo_iff :
    history.canUndo = true ↔
      history.checkIdle = .ok () ∧ 0 < history.cursor := by
  rw [checkIdle_eq_ok_iff, canUndo, isCorrupted, isRecording]
  simp [and_assoc]

theorem canRedo_iff :
    history.canRedo = true ↔
      history.checkIdle = .ok () ∧ history.cursor < history.size := by
  rw [checkIdle_eq_ok_iff, canRedo, isCorrupted, isRecording, size]
  simp [and_assoc]

theorem beginGroup_eq_ok
    {label : String}
    {after : History κ × ScopeToken}
    (opened : history.beginGroup label = .ok after) :
    history.corrupted = none ∧
      after.1 = { history with scopes := ⟨label, []⟩ :: history.scopes } := by
  rw [beginGroup] at opened
  cases usable : history.checkUsable with
  | error fault =>
      rw [usable] at opened
      cases opened
  | ok _ =>
      rw [usable] at opened
      cases opened
      exact ⟨checkUsable_eq_ok_iff.1 usable, rfl⟩

/-- A group is closed by the token that was given for the innermost open one,
and recorded if it has parts. -/
theorem endGroup_eq_ok
    {token : ScopeToken}
    {after : History κ × Outcome}
    (closed : history.endGroup token = .ok after) :
    token.depth = history.scopes.length ∧ ∃ scope outer,
      history.scopes = scope :: outer ∧
      (after.1 = { history with scopes := outer } ∨
        after.1 = { history with scopes := outer }.record scope.entry) := by
  rw [endGroup] at closed
  simp only at closed
  split at closed
  · cases closed
  · next matching =>
    refine ⟨not_not.1 matching, ?_⟩
    split at closed
    · cases closed
    · next scope outer isOpen =>
      split at closed <;> cases closed
      · exact ⟨scope, outer, isOpen, .inl rfl⟩
      · exact ⟨scope, outer, isOpen, .inr rfl⟩

theorem exists_endGroup_iff (token : ScopeToken) :
    (∃ after, history.endGroup token = .ok after) ↔
      history.scopes ≠ [] ∧ token.depth = history.scopes.length := by
  constructor
  · rintro ⟨after, closed⟩
    obtain ⟨matching, scope, outer, isOpen, _⟩ := endGroup_eq_ok closed
    exact ⟨isOpen ▸ List.cons_ne_nil _ _, matching⟩
  · rintro ⟨isOpen, matching⟩
    obtain ⟨scope, outer, isScopes⟩ := List.exists_cons_of_ne_nil isOpen
    rw [endGroup]
    simp only [matching, isScopes, ne_eq, not_true_eq_false, if_false]
    split
    · exact ⟨_, rfl⟩
    · exact ⟨_, rfl⟩

end Refused

/-! ## Trying an entry -/

section Tried

variable [Reversible κ σ] {α : Type}

/-- What is left after an entry was tried: the history with the entry on the
other side of the cursor if that succeeded, and a history that is given up
otherwise. -/
def tried (moved kept : Entry κ → History κ) (attempt : Step (Entry κ) σ α) :
    Step (History κ) σ Unit :=
  match attempt.result with
  | .ok _ => ⟨moved attempt.command, attempt.state, .ok ()⟩
  | .error fault =>
    ⟨(kept attempt.command).corrupt attempt.command.label fault, attempt.state,
      .error (.historyCorruption attempt.command.label fault.message)⟩

omit [Reversible κ σ] in
/-- The reason for giving a history up says more than the message it comes
from. -/
theorem corrupted_corrupt_ne
    (history : History κ)
    (label : String)
    (fault : Fault) :
    (history.corrupt label fault).corrupted ≠ some fault.message := by
  intro same
  have longer := congrArg String.length (Option.some.inj same)
  have quote : (toString "'").length = 1 := rfl
  simp only [String.length_append, quote] at longer
  change 1 + _ + _ + fault.message.length = _ at longer
  omega

/-- Trying an entry never looks like a refusal. -/
theorem tried_ne_failed
    (explains : history.Explains fault)
    (moved kept : Entry κ → History κ)
    (attempt : Step (Entry κ) σ α) :
    tried moved kept attempt ≠ .failed history state fault := by
  rcases attempt with ⟨entry, after, failure | done⟩
  · intro same
    obtain ⟨rfl, _, reported⟩ := Step.mk.inj same
    rw [explains _ rfl] at reported
    have message := (Fault.historyCorruption.inj (Except.error.inj reported)).2
    exact corrupted_corrupt_ne (kept entry) entry.label failure
      (congrArg some message.symm)
  · intro same
    cases (Step.mk.inj same).2.2

/-- The history after the last entry was tried to be taken back. -/
def reverted (history : History κ) (state : σ) (entry : Entry κ) :
    Step (History κ) σ Unit :=
  tried
    (fun after =>
      { history with
        entries := history.entries.set (history.cursor - 1) after
        cursor := history.cursor - 1 })
    (history.replace (history.cursor - 1)) (entry.revert state)

/-- The history after the next entry was tried to be carried out again. -/
def reapplied (history : History κ) (state : σ) (entry : Entry κ) :
    Step (History κ) σ Unit :=
  tried
    (fun after =>
      { history with
        entries := history.entries.set history.cursor after
        cursor := history.cursor + 1 })
    (history.replace history.cursor) (entry.apply state)

theorem undo_of_canUndo
    (inRange : history.cursor ≤ history.size)
    (can : history.canUndo = true)
    (state : σ) :
    ∃ entry, history.entries[history.cursor - 1]? = some entry ∧
      history.undo state = history.reverted state entry := by
  obtain ⟨idle, positive⟩ := canUndo_iff.1 can
  have inside : history.cursor - 1 < history.size := by omega
  obtain ⟨entry, found⟩ := exists_entryAt inside
  refine ⟨entry, entryAt_eq_ok_iff.1 found, ?_⟩
  rw [undo, idle, reverted, tried]
  simp only [if_neg (Nat.ne_of_gt positive), found]
  rcases entry.revert state with ⟨after, document, _ | _⟩ <;> rfl

theorem undo_of_not_canUndo (cannot : history.canUndo = false) (state : σ) :
    ∃ fault, history.Explains fault ∧
      history.undo state = .failed history state fault := by
  rw [undo]
  cases idle : history.checkIdle with
  | error fault => exact ⟨fault, explains_of_checkIdle idle, rfl⟩
  | ok _ =>
      have nothing : history.cursor = 0 := by
        by_contra positive
        rw [canUndo_iff.2 ⟨idle, Nat.pos_of_ne_zero positive⟩] at cannot
        cases cannot
      refine ⟨.nothingToUndo, explains_of_idle idle _, ?_⟩
      simp only [if_pos nothing]

theorem redo_of_canRedo (can : history.canRedo = true) (state : σ) :
    ∃ entry, history.entries[history.cursor]? = some entry ∧
      history.redo state = history.reapplied state entry := by
  obtain ⟨idle, inside⟩ := canRedo_iff.1 can
  have notEnd : history.cursor ≠ history.entries.length := Nat.ne_of_lt inside
  obtain ⟨entry, found⟩ := exists_entryAt inside
  refine ⟨entry, entryAt_eq_ok_iff.1 found, ?_⟩
  rw [redo, idle, reapplied, tried]
  simp only [if_neg notEnd, found]
  rcases entry.apply state with ⟨after, document, _ | _⟩ <;> rfl

theorem redo_of_not_canRedo
    (inRange : history.cursor ≤ history.size)
    (cannot : history.canRedo = false)
    (state : σ) :
    ∃ fault, history.Explains fault ∧
      history.redo state = .failed history state fault := by
  rw [redo]
  cases idle : history.checkIdle with
  | error fault => exact ⟨fault, explains_of_checkIdle idle, rfl⟩
  | ok _ =>
      have nothing : history.cursor = history.entries.length := by
        refine Nat.le_antisymm inRange (Nat.le_of_not_lt fun inside => ?_)
        rw [canRedo_iff.2 ⟨idle, inside⟩] at cannot
        cases cannot
      refine ⟨.nothingToRedo, explains_of_idle idle _, ?_⟩
      simp only [if_pos nothing]

end Tried

/-! ## Settings -/

/-- The cursor lies inside the log, the history keeps to its settings, and it
has no open group once it was given up. -/
structure Orderly (settings : HistorySettings) (history : History κ) :
    Prop where
  inRange : history.cursor ≤ history.size
  maxEntries : history.maxEntries = settings.maxEntries
  bounded : 0 < settings.maxEntries → history.size ≤ settings.maxEntries
  scopes : history.corrupted ≠ none → history.scopes = []

theorem orderly_new (settings : HistorySettings) :
    Orderly settings (new settings : History κ) :=
  ⟨Nat.le_refl _, rfl, fun _ => Nat.zero_le _, fun _ => rfl⟩

namespace Orderly

variable {settings : HistorySettings}

theorem clear (orderly : Orderly settings history) :
    history.clear = new settings := by
  rw [History.clear, new, orderly.maxEntries]

/-- Other open groups of a history that can be used. -/
theorem withScopes
    (orderly : Orderly settings history)
    (intact : history.corrupted = none)
    (scopes : List (Scope κ)) :
    Orderly settings { history with scopes } :=
  ⟨orderly.inRange, orderly.maxEntries, orderly.bounded,
    fun corrupted => absurd intact corrupted⟩

/-- Another entry in the place of one, and the cursor elsewhere in the log. -/
theorem moved
    (orderly : Orderly settings history)
    (position : Nat)
    (entry : Entry κ)
    {cursor : Nat}
    (inRange : cursor ≤ history.size) :
    Orderly settings
      { history with
        entries := history.entries.set position entry
        cursor } := by
  have same : (history.entries.set position entry).length = history.size :=
    List.length_set
  refine ⟨?_, orderly.maxEntries, fun positive => ?_, orderly.scopes⟩
  · rw [size, same]
    exact inRange
  · rw [size, same]
    exact orderly.bounded positive

theorem record
    (orderly : Orderly settings history)
    (intact : history.corrupted = none)
    (entry : Entry κ) :
    Orderly settings (history.record entry) := by
  cases isOpen : history.scopes with
  | cons scope outer =>
      rw [record_of_open isOpen]
      exact orderly.withScopes intact _
  | nil =>
      rw [record_of_idle isOpen]
      refine ⟨Nat.le_refl _, orderly.maxEntries, fun positive => ?_,
        fun corrupted => absurd intact corrupted⟩
      rw [← orderly.maxEntries] at positive ⊢
      exact length_latest_le positive _

theorem beginGroup
    (orderly : Orderly settings history)
    {label : String}
    {after : History κ × ScopeToken}
    (opened : history.beginGroup label = .ok after) :
    Orderly settings after.1 := by
  obtain ⟨intact, isAfter⟩ := beginGroup_eq_ok opened
  rw [isAfter]
  exact orderly.withScopes intact _

theorem endGroup
    (orderly : Orderly settings history)
    {token : ScopeToken}
    {after : History κ × Outcome}
    (closed : history.endGroup token = .ok after) :
    Orderly settings after.1 := by
  obtain ⟨_, scope, outer, isOpen, isAfter⟩ := endGroup_eq_ok closed
  have intact : history.corrupted = none := by
    by_contra corrupted
    rw [orderly.scopes corrupted] at isOpen
    cases isOpen
  have without := orderly.withScopes intact outer
  rcases isAfter with same | recorded
  · rw [same]
    exact without
  · rw [recorded]
    exact without.record intact _

variable [Reversible κ σ]

theorem tried
    {α : Type}
    {moved kept : Entry κ → History κ}
    (orderlyMoved : ∀ entry, Orderly settings (moved entry))
    (orderlyKept : ∀ entry, Orderly settings (kept entry))
    (idle : ∀ entry, (kept entry).scopes = [])
    (attempt : Step (Entry κ) σ α) :
    Orderly settings (History.tried moved kept attempt).command := by
  rcases attempt with ⟨entry, after, fault | done⟩
  · exact ⟨(orderlyKept entry).inRange, (orderlyKept entry).maxEntries,
      (orderlyKept entry).bounded, fun _ => idle entry⟩
  · exact orderlyMoved entry

theorem undo (orderly : Orderly settings history) (state : σ) :
    Orderly settings (history.undo state).command := by
  cases can : history.canUndo with
  | false =>
      obtain ⟨fault, _, refused⟩ := undo_of_not_canUndo can state
      rw [refused]
      exact orderly
  | true =>
      obtain ⟨entry, _, done⟩ := undo_of_canUndo orderly.inRange can state
      have idle := (checkIdle_eq_ok_iff.1 (canUndo_iff.1 can).1).2
      rw [done, reverted]
      refine Orderly.tried (fun entry => ?_) (fun entry => ?_) (fun _ => ?_) _
      · exact orderly.moved _ entry
          (Nat.le_trans (Nat.sub_le _ _) orderly.inRange)
      · exact orderly.moved _ entry orderly.inRange
      · exact idle

theorem redo (orderly : Orderly settings history) (state : σ) :
    Orderly settings (history.redo state).command := by
  cases can : history.canRedo with
  | false =>
      obtain ⟨fault, _, refused⟩ :=
        redo_of_not_canRedo orderly.inRange can state
      rw [refused]
      exact orderly
  | true =>
      obtain ⟨entry, _, done⟩ := redo_of_canRedo can state
      obtain ⟨isIdle, inside⟩ := canRedo_iff.1 can
      have idle := (checkIdle_eq_ok_iff.1 isIdle).2
      rw [done, reapplied]
      refine Orderly.tried (fun entry => ?_) (fun entry => ?_) (fun _ => ?_) _
      · exact orderly.moved _ entry inside
      · exact orderly.moved _ entry orderly.inRange
      · exact idle

theorem push
    (orderly : Orderly settings history)
    (state : σ)
    (entry : Entry κ) :
    Orderly settings (history.push state entry).command := by
  rw [History.push]
  cases usable : history.checkUsable with
  | error fault => exact orderly
  | ok _ =>
      rcases entry.apply state with ⟨after, document, fault | _ | _⟩
      · exact orderly
      · exact orderly.record (checkUsable_eq_ok_iff.1 usable) after
      · exact orderly

end Orderly

/-! ## Runs -/

/-- What can be asked of a history. -/
inductive Call (κ : Type) where
  | push (entry : Entry κ)
  | beginGroup (label : String)
  | endGroup (token : ScopeToken)
  | undo
  | redo
  | clear

section Runs

variable [Reversible κ σ]

/-- What a call leaves, and whether it succeeded. -/
def perform (history : History κ) (state : σ) : Call κ → Step (History κ) σ Unit
  | .push entry =>
    let step := history.push state entry
    ⟨step.command, step.state, step.result.map fun _ => ()⟩
  | .beginGroup label =>
    match history.beginGroup label with
    | .ok (after, _) => ⟨after, state, .ok ()⟩
    | .error fault => .failed history state fault
  | .endGroup token =>
    match history.endGroup token with
    | .ok (after, _) => ⟨after, state, .ok ()⟩
    | .error fault => .failed history state fault
  | .undo => history.undo state
  | .redo => history.redo state
  | .clear => ⟨history.clear, state, .ok ()⟩

/-- The history and the state after a number of calls. -/
def run (history : History κ) (state : σ) : List (Call κ) → History κ × σ
  | [] => (history, state)
  | call :: rest =>
    (history.perform state call).command.run
      (history.perform state call).state rest

/-- A call fails and changes nothing. -/
def Refuses (history : History κ) (state : σ) (call : Call κ) : Prop :=
  ∃ fault, history.perform state call = .failed history state fault

variable {settings : HistorySettings}

theorem Orderly.perform
    (orderly : Orderly settings history)
    (state : σ)
    (call : Call κ) :
    Orderly settings (history.perform state call).command := by
  cases call with
  | push entry => exact orderly.push state entry
  | beginGroup label =>
      rw [History.perform]
      cases opened : history.beginGroup label with
      | error fault => exact orderly
      | ok after => exact orderly.beginGroup opened
  | endGroup token =>
      rw [History.perform]
      cases closed : history.endGroup token with
      | error fault => exact orderly
      | ok after => exact orderly.endGroup closed
  | undo => exact orderly.undo state
  | redo => exact orderly.redo state
  | clear =>
      rw [History.perform, orderly.clear]
      exact orderly_new settings

theorem Orderly.run
    (orderly : Orderly settings history)
    (state : σ)
    (calls : List (Call κ)) :
    Orderly settings (history.run state calls).1 := by
  induction calls generalizing history state with
  | nil => exact orderly
  | cons call rest inductionHypothesis =>
      exact inductionHypothesis (orderly.perform state call) _

/-! ## Histories that were given up -/

/-- Only taking an entry back or carrying it out again gives a history up. -/
theorem eq_undo_or_redo_of_corrupted
    (intact : history.corrupted = none)
    {call : Call κ}
    (corrupted : (history.perform state call).command.corrupted ≠ none) :
    call = .undo ∨ call = .redo := by
  cases call with
  | undo => exact .inl rfl
  | redo => exact .inr rfl
  | clear => exact absurd rfl corrupted
  | push entry =>
      refine absurd ?_ corrupted
      rw [perform, History.push, checkUsable_eq_ok_iff.2 intact]
      rcases entry.apply state with ⟨after, document, fault | _ | _⟩
      · exact intact
      · exact (corrupted_record history after).trans intact
      · exact intact
  | beginGroup label =>
      refine absurd ?_ corrupted
      rw [perform]
      cases opened : history.beginGroup label with
      | error fault => exact intact
      | ok after =>
          exact (congrArg History.corrupted
            (beginGroup_eq_ok opened).2).trans intact
  | endGroup token =>
      refine absurd ?_ corrupted
      rw [perform]
      cases closed : history.endGroup token with
      | error fault => exact intact
      | ok after =>
          obtain ⟨_, scope, outer, _, same | recorded⟩ := endGroup_eq_ok closed
          · exact (congrArg History.corrupted same).trans intact
          · exact (congrArg History.corrupted recorded).trans
              ((corrupted_record _ _).trans intact)

/-- A history that was given up refuses everything but to be cleared. -/
theorem Orderly.refuses
    (orderly : Orderly settings history)
    (corrupted : history.corrupted ≠ none)
    (state : σ)
    {call : Call κ}
    (notClear : call ≠ .clear) :
    history.Refuses state call := by
  obtain ⟨reason, isReason⟩ := Option.ne_none_iff_exists'.1 corrupted
  have unusable :
      history.checkUsable = .error (.historyCorruption "history" reason) := by
    rw [checkUsable, isReason]
  cases call with
  | clear => exact absurd rfl notClear
  | push entry =>
      refine ⟨.historyCorruption "history" reason, ?_⟩
      rw [History.perform, History.push, unusable]
      rfl
  | beginGroup label =>
      refine ⟨.historyCorruption "history" reason, ?_⟩
      rw [History.perform, History.beginGroup, unusable]
      rfl
  | endGroup token =>
      rw [Refuses, History.perform]
      cases closed : history.endGroup token with
      | error fault => exact ⟨fault, rfl⟩
      | ok after =>
          exact absurd (orderly.scopes corrupted)
            ((exists_endGroup_iff token).1 ⟨after, closed⟩).1
  | undo =>
      refine ⟨.historyCorruption "history" reason, ?_⟩
      rw [History.perform, History.undo, checkIdle, unusable]
      rfl
  | redo =>
      refine ⟨.historyCorruption "history" reason, ?_⟩
      rw [History.perform, History.redo, checkIdle, unusable]
      rfl

theorem Orderly.run_of_corrupted
    (orderly : Orderly settings history)
    (corrupted : history.corrupted ≠ none)
    (state : σ)
    {calls : List (Call κ)}
    (notCleared : .clear ∉ calls) :
    history.run state calls = (history, state) := by
  induction calls with
  | nil => rfl
  | cons call rest inductionHypothesis =>
      obtain ⟨isOther, others⟩ := not_or.1 (mt List.mem_cons.2 notCleared)
      obtain ⟨fault, refused⟩ :=
        orderly.refuses corrupted state (Ne.symm isOther)
      rw [History.run, refused]
      exact inductionHypothesis others

/-! ## Entries next to the cursor -/

theorem Orderly.undoLabel_of_pos
    (orderly : Orderly settings history)
    (positive : 0 < history.cursor) :
    ∃ entry, history.entryAt (history.cursor - 1) = .ok entry ∧
      history.undoLabel = some entry.label := by
  have inside : history.cursor - 1 < history.size :=
    Nat.sub_one_lt_of_le positive orderly.inRange
  obtain ⟨entry, found⟩ := exists_entryAt inside
  refine ⟨entry, found, ?_⟩
  rw [undoLabel, if_neg (Nat.ne_of_gt positive), entryAt_eq_ok_iff.1 found]
  rfl

theorem Orderly.redoLabel_of_ne
    (orderly : Orderly settings history)
    (notEnd : history.cursor ≠ history.entries.length) :
    ∃ entry, history.entryAt history.cursor = .ok entry ∧
      history.redoLabel = some entry.label := by
  obtain ⟨entry, found⟩ :=
    exists_entryAt (Nat.lt_of_le_of_ne orderly.inRange notEnd)
  refine ⟨entry, found, ?_⟩
  rw [redoLabel, entryAt_eq_ok_iff.1 found]
  rfl

/-! ## What can be relied on -/

/-- What holds of a history in use, whatever its entries do. -/
structure Dependable
    (settings : HistorySettings)
    (history : History κ)
    (state : σ) :
    Prop where
  /-- The cursor lies inside the log. -/
  cursor : history.cursor ≤ history.entries.length
  limit : 0 < settings.maxEntries →
    history.entries.length ≤ settings.maxEntries
  /-- No entry is looked up outside the log: there is one before the cursor
  unless it is at the start, and one after it unless it is at the end. -/
  before : 0 < history.cursor →
    ∃ entry, history.entryAt (history.cursor - 1) = .ok entry ∧
      history.undoLabel = some entry.label
  after : history.cursor ≠ history.entries.length →
    ∃ entry, history.entryAt history.cursor = .ok entry ∧
      history.redoLabel = some entry.label
  idle : history.isCorrupted = true → history.isRecording = false
  /-- Undo comes to taking the last entry back exactly when it can be done, and
  is refused otherwise. -/
  undo : (history.canUndo = true ↔
      ∃ entry, history.entries[history.cursor - 1]? = some entry ∧
        history.undo state = history.reverted state entry) ∧
    (history.canUndo = false ↔ history.Refuses state .undo)
  /-- Redo comes to carrying the next entry out exactly when it can be done, and
  is refused otherwise. -/
  redo : (history.canRedo = true ↔
      ∃ entry, history.entries[history.cursor]? = some entry ∧
        history.redo state = history.reapplied state entry) ∧
    (history.canRedo = false ↔ history.Refuses state .redo)
  /-- Closing a group is refused unless the token is that of the innermost open
  group. -/
  endGroup : ∀ token, history.Refuses state (.endGroup token) ↔
    ¬ ∃ after, history.endGroup token = .ok after
  matching : ∀ token, (∃ after, history.endGroup token = .ok after) ↔
    history.scopes ≠ [] ∧ token.depth = history.scopes.length
  /-- Nothing but undo and redo gives the history up. -/
  given : ∀ call, history.isCorrupted = false →
    (history.perform state call).command.isCorrupted = true →
    call = .undo ∨ call = .redo
  /-- Once given up, the history refuses everything until it is cleared. -/
  refuses : history.isCorrupted = true → ∀ calls, Call.clear ∉ calls →
    history.run state calls = (history, state) ∧ ∀ call ∈ calls,
      history.Refuses state call
  cleared : history.clear = new settings

/-- A call that reaches an entry exactly when that can be done is refused
exactly when it cannot. -/
theorem reached_iff_and_refuses_iff
    {can : Bool}
    {call : Call κ}
    {Reached : Prop}
    (reached : can = true → Reached)
    (explains : can = true → ∀ fault, history.Explains fault)
    (refused : can = false →
      ∃ fault, history.Explains fault ∧
        history.perform state call = .failed history state fault)
    (apart : Reached → ∀ fault, history.Explains fault →
      history.perform state call ≠ .failed history state fault) :
    (can = true ↔ Reached) ∧ (can = false ↔ history.Refuses state call) := by
  cases can with
  | true =>
      refine ⟨iff_of_true rfl (reached rfl), iff_of_false (by decide) ?_⟩
      rintro ⟨fault, failed⟩
      exact apart (reached rfl) fault (explains rfl fault) failed
  | false =>
      obtain ⟨fault, explained, failed⟩ := refused rfl
      exact ⟨iff_of_false (by decide) fun reached =>
        apart reached fault explained failed,
        iff_of_true rfl ⟨fault, failed⟩⟩

theorem refuses_endGroup_iff (token : ScopeToken) :
    history.Refuses state (.endGroup token) ↔
      ¬ ∃ after, history.endGroup token = .ok after := by
  rw [Refuses, perform]
  cases history.endGroup token with
  | error fault => simp
  | ok after => simp [Step.failed]

/-- Whatever is asked of a new history, and whatever its entries do, it can be
relied on. -/
theorem dependable_of_run
    (settings : HistorySettings)
    (state : σ)
    (calls : List (Call κ)) :
    Dependable settings ((new settings).run state calls).1
      ((new settings).run state calls).2 := by
  have orderly := (orderly_new settings).run state calls
  generalize (new settings).run state calls = reached at orderly
  obtain ⟨history, state⟩ := reached
  have corrupted_iff : history.isCorrupted = true ↔ history.corrupted ≠ none :=
    Option.isSome_iff_ne_none
  constructor
  · exact orderly.inRange
  · exact orderly.bounded
  · exact orderly.undoLabel_of_pos
  · exact orderly.redoLabel_of_ne
  · intro corrupted
    rw [isRecording, orderly.scopes (corrupted_iff.1 corrupted)]
    rfl
  · refine reached_iff_and_refuses_iff
      (undo_of_canUndo orderly.inRange · state)
      (fun can => explains_of_idle (canUndo_iff.1 can).1)
      (undo_of_not_canUndo · state) ?_
    rintro ⟨entry, _, done⟩ fault explains failed
    exact tried_ne_failed explains _ _ _ (done.symm.trans failed)
  · refine reached_iff_and_refuses_iff (redo_of_canRedo · state)
      (fun can => explains_of_idle (canRedo_iff.1 can).1)
      (redo_of_not_canRedo orderly.inRange · state) ?_
    rintro ⟨entry, _, done⟩ fault explains failed
    exact tried_ne_failed explains _ _ _ (done.symm.trans failed)
  · exact refuses_endGroup_iff
  · exact exists_endGroup_iff
  · intro call intact corrupted
    exact eq_undo_or_redo_of_corrupted
      (Option.not_isSome_iff_eq_none.1 (Bool.eq_false_iff.1 intact))
      (Option.isSome_iff_ne_none.1 corrupted)
  · intro corrupted calls notCleared
    refine ⟨orderly.run_of_corrupted
      (corrupted_iff.1 corrupted) state notCleared, ?_⟩
    intro call member
    refine orderly.refuses (corrupted_iff.1 corrupted) state fun isClear => ?_
    exact notCleared (isClear ▸ member)
  · exact orderly.clear

end Runs

/-- A command that cannot be taken back. -/
inductive Final where
  | final

instance : Reversible Final Nat where
  label _ := "Final"
  apply command count := ⟨command, count + 1, .ok .changed⟩
  revert command count := .failed command count (.invalid "final")

/-- Carries out a command that cannot be taken back, fails to, and goes on
regardless. -/
def regardless : List (Call Final) :=
  [.push (.single .final), .undo, .push (.single .final),
    .beginGroup "more", .redo]

theorem dependable_of_regardless :
    ((new ⟨1⟩).run 0 regardless).1.isCorrupted = true ∧
      ((new ⟨1⟩).run 0 regardless).2 = 1 ∧
      Dependable ⟨1⟩ ((new ⟨1⟩).run 0 regardless).1
        ((new ⟨1⟩).run 0 regardless).2 :=
  ⟨rfl, rfl, dependable_of_run ⟨1⟩ 0 regardless⟩

end History
end MotionScene
