import MotionScene.Fault

/-!
# Reversible commands

A command changes a state and can take its change back.  What it needs for that
it keeps in itself, so carrying it out gives a new command along with the new
state.  Several commands can act as one.
-/

namespace MotionScene

/-- Whether a command changed anything. -/
inductive Outcome where
  | changed
  | noop
deriving DecidableEq, Repr

/-- What carrying out a command leaves: the command, the state, and the
result. -/
structure Step (κ σ α : Type) where
  command : κ
  state : σ
  result : Except Fault α

namespace Step

variable {κ σ α : Type}

/-- A failure that leaves everything as it was. -/
def failed (command : κ) (state : σ) (fault : Fault) : Step κ σ α :=
  ⟨command, state, .error fault⟩

/-- Nothing to do. -/
def idle (command : κ) (state : σ) : Step κ σ Outcome :=
  ⟨command, state, .ok .noop⟩

/-- The same step of a command seen as another one. -/
def map {κ' : Type} (view : κ → κ') (step : Step κ σ α) : Step κ' σ α :=
  ⟨view step.command, step.state, step.result⟩

end Step

/-- Commands on states that can be carried out and taken back. -/
class Reversible (κ : Type) (σ : outParam Type) where
  /-- One line that describes the command. -/
  label : κ → String
  /-- Carries the command out. -/
  apply : κ → σ → Step κ σ Outcome
  /-- Takes the last application of the command back. -/
  revert : κ → σ → Step κ σ Unit

/-- A command, or several commands that act as one. -/
inductive Entry (κ : Type) where
  | single (command : κ)
  | group (label : String) (parts : List (Entry κ))

namespace Entry

variable {κ σ : Type} [Reversible κ σ]

/-- One line that describes an entry. -/
def label : Entry κ → String
  | single command => Reversible.label command
  | group label _ => label

mutual

/-- Takes an entry back; the parts of a group are taken back last first, up to
the first failure. -/
def revert : Entry κ → σ → Step (Entry κ) σ Unit
  | single command, state => (Reversible.revert command state).map single
  | group label parts, state => (revertParts parts state).map (group label)

/-- Takes entries back, last first, up to the first failure. -/
def revertParts : List (Entry κ) → σ → Step (List (Entry κ)) σ Unit
  | [], state => ⟨[], state, .ok ()⟩
  | part :: rest, state =>
    let later := revertParts rest state
    match later.result with
    | .error fault => ⟨part :: later.command, later.state, .error fault⟩
    | .ok () =>
      let step := part.revert later.state
      ⟨step.command :: later.command, step.state, step.result⟩

end

/-- Takes entries back, given last first, because another one failed.  A failure
on the way is reported with the label of the entry. -/
def rollback : List (Entry κ) → σ → Step (List (Entry κ)) σ Unit
  | [], state => ⟨[], state, .ok ()⟩
  | part :: rest, state =>
    let step := part.revert state
    match step.result with
    | .error fault =>
      ⟨step.command :: rest, step.state,
        .error (.historyCorruption step.command.label fault.message)⟩
    | .ok () =>
      let earlier := rollback rest step.state
      ⟨step.command :: earlier.command, earlier.state, earlier.result⟩

mutual

/-- Carries an entry out.  A group keeps only the parts that changed
something. -/
def apply : Entry κ → σ → Step (Entry κ) σ Outcome
  | single command, state => (Reversible.apply command state).map single
  | group label parts, state => (applyParts parts [] state).map (group label)

/-- Carries entries out in order; those applied so far are given last first.
When one fails, they are taken back. -/
def applyParts :
    List (Entry κ) → List (Entry κ) → σ → Step (List (Entry κ)) σ Outcome
  | [], applied, state =>
    ⟨applied.reverse, state, .ok (if applied.isEmpty then .noop else .changed)⟩
  | part :: rest, applied, state =>
    let step := part.apply state
    match step.result with
    | .ok .changed => applyParts rest (step.command :: applied) step.state
    | .ok .noop => applyParts rest applied step.state
    | .error fault =>
      let undone := rollback applied step.state
      match undone.result with
      | .ok () => ⟨undone.command.reverse, undone.state, .error fault⟩
      | .error corruption => ⟨[], undone.state, .error corruption⟩

end

end Entry
end MotionScene
