import MotionScene.Command.Reversible
import MotionScene.Settings.Basic

/-!
# Histories

A history is a log of the entries that were carried out, with a cursor: the
entries before it can be taken back, and those from it on can be carried out
again.  While a group is open, entries are collected in it, and the outermost
group becomes one entry.  A failure to replay an entry makes the history
unusable until it is cleared.
-/

namespace MotionScene

/-- A group that is still being collected, last part first. -/
structure Scope (κ : Type) where
  label : String
  parts : List (Entry κ)

/-- The entry that a finished group becomes. -/
def Scope.entry {κ : Type} (scope : Scope κ) : Entry κ :=
  .group scope.label scope.parts.reverse

/-- The right to close the group that was opened as the one of a depth. -/
structure ScopeToken where
  depth : Nat
deriving DecidableEq, Repr

/-- The entries of a document. -/
structure History (κ : Type) where
  /-- The entries, oldest first. -/
  entries : List (Entry κ) := []
  /-- How many of the entries are carried out. -/
  cursor : Nat := 0
  /-- The open groups, innermost first. -/
  scopes : List (Scope κ) := []
  /-- The most entries to keep; zero keeps all. -/
  maxEntries : Nat
  /-- Why the history cannot be used any more. -/
  corrupted : Option String := none

namespace History

variable {κ σ : Type}

/-- The empty history. -/
def new (settings : HistorySettings) : History κ :=
  { maxEntries := settings.maxEntries }

/-- How many entries there are. -/
def size (history : History κ) : Nat :=
  history.entries.length

/-- Whether a group is open. -/
def isRecording (history : History κ) : Bool :=
  !history.scopes.isEmpty

/-- Whether the history was given up. -/
def isCorrupted (history : History κ) : Bool :=
  history.corrupted.isSome

/-- Whether there is an entry to take back. -/
def canUndo (history : History κ) : Bool :=
  !history.isCorrupted && !history.isRecording && 0 < history.cursor

/-- Whether there is an entry to carry out again. -/
def canRedo (history : History κ) : Bool :=
  !history.isCorrupted && !history.isRecording &&
    history.cursor < history.entries.length

/-- Forgets everything. -/
def clear (history : History κ) : History κ :=
  { maxEntries := history.maxEntries }

/-- Refuses to use a history that cannot be relied on. -/
def checkUsable (history : History κ) : Except Fault Unit :=
  match history.corrupted with
  | some reason => .error (.historyCorruption "history" reason)
  | none => .ok ()

/-- Refuses to replay while the history cannot be relied on or a group is
open. -/
def checkIdle (history : History κ) : Except Fault Unit := do
  history.checkUsable
  if history.isRecording then
    throw (.groupState "undo and redo are unavailable while a macro is open")

/-- The history without its oldest entries, if there are more than it keeps. -/
def trim (history : History κ) : History κ :=
  let count := history.entries.length
  if 0 < history.maxEntries && history.maxEntries < count then
    let excess := count - history.maxEntries
    { history with
      entries := history.entries.drop excess
      cursor := history.cursor - excess }
  else history

/-- The history with an entry put at the cursor; those that could have been
carried out again are lost. -/
def append (history : History κ) (entry : Entry κ) : History κ :=
  let entries := history.entries.take history.cursor ++ [entry]
  { history with entries, cursor := entries.length }.trim

/-- The history with an entry that was just carried out: in the innermost open
group, or in the log. -/
def record (history : History κ) (entry : Entry κ) : History κ :=
  match history.scopes with
  | scope :: outer =>
    { history with
      scopes := { scope with parts := entry :: scope.parts } :: outer }
  | [] => history.append entry

/-! ## Groups -/

/-- Opens a group. -/
def beginGroup (history : History κ) (label : String) :
    Except Fault (History κ × ScopeToken) := do
  history.checkUsable
  return ({ history with scopes := ⟨label, []⟩ :: history.scopes },
    ⟨history.scopes.length + 1⟩)

/-- Closes the innermost group; an empty one leaves no trace. -/
def endGroup (history : History κ) (token : ScopeToken) :
    Except Fault (History κ × Outcome) :=
  let count := history.scopes.length
  if token.depth ≠ count then
    .error
      (.groupState
        s!"closing macro at depth {token.depth} while {count} are open")
  else
    match history.scopes with
    | [] => .error (.groupState "no macro is open")
    | scope :: outer =>
      let closed := { history with scopes := outer }
      if scope.parts.isEmpty then .ok (closed, .noop)
      else .ok (closed.record scope.entry, .changed)

/-! ## Carrying out and taking back -/

variable [Reversible κ σ]

/-- The labels of all entries, oldest first. -/
def labels (history : History κ) : List String :=
  history.entries.map Entry.label

/-- The label of the entry to take back next. -/
def undoLabel (history : History κ) : Option String :=
  if history.cursor = 0 then none
  else history.entries[history.cursor - 1]?.map Entry.label

/-- The label of the entry to carry out next. -/
def redoLabel (history : History κ) : Option String :=
  history.entries[history.cursor]?.map Entry.label

/-- Carries an entry out and remembers it if it changed something. -/
def push (history : History κ) (state : σ) (entry : Entry κ) :
    Step (History κ) σ Outcome :=
  match history.checkUsable with
  | .error fault => .failed history state fault
  | .ok () =>
    let step := entry.apply state
    match step.result with
    | .ok .changed => ⟨history.record step.command, step.state, .ok .changed⟩
    | result => ⟨history, step.state, result⟩

/-- Gives the history up because an entry could not be replayed. -/
def corrupt (history : History κ) (label : String) (fault : Fault) :
    History κ :=
  { history with corrupted := some s!"'{label}' failed: {fault.message}" }

/-- The entry at a position, which has to be one of the log. -/
def entryAt (history : History κ) (position : Nat) : Except Fault (Entry κ) :=
  match history.entries[position]? with
  | some entry => .ok entry
  | none =>
    let count := history.entries.length
    .error (.halted
      s!"index out of bounds: the len is {count} but the index is {position}")

/-- The history with another entry at a position. -/
def replace (history : History κ) (position : Nat) (entry : Entry κ) :
    History κ :=
  { history with entries := history.entries.set position entry }

/-- Takes the last entry back. -/
def undo (history : History κ) (state : σ) : Step (History κ) σ Unit :=
  match history.checkIdle with
  | .error fault => .failed history state fault
  | .ok () =>
    if history.cursor = 0 then .failed history state .nothingToUndo
    else
      match history.entryAt (history.cursor - 1) with
      | .error fault => .failed history state fault
      | .ok entry =>
        let step := entry.revert state
        let after := history.replace (history.cursor - 1) step.command
        match step.result with
        | .ok () =>
          ⟨{ after with cursor := history.cursor - 1 }, step.state, .ok ()⟩
        | .error fault =>
          let label := step.command.label
          ⟨after.corrupt label fault, step.state,
            .error (.historyCorruption label fault.message)⟩

/-- Carries the next entry out again. -/
def redo (history : History κ) (state : σ) : Step (History κ) σ Unit :=
  match history.checkIdle with
  | .error fault => .failed history state fault
  | .ok () =>
    if history.cursor = history.entries.length then
      .failed history state .nothingToRedo
    else
      match history.entryAt history.cursor with
      | .error fault => .failed history state fault
      | .ok entry =>
        let step := entry.apply state
        let after := history.replace history.cursor step.command
        match step.result with
        | .ok _ =>
          ⟨{ after with cursor := history.cursor + 1 }, step.state, .ok ()⟩
        | .error fault =>
          let label := step.command.label
          ⟨after.corrupt label fault, step.state,
            .error (.historyCorruption label fault.message)⟩

end History
end MotionScene
