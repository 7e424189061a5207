import MotionScene.Command.Edit
import MotionScene.Proofs.Command.Flattening
import MotionScene.Proofs.History.Log

/-!
# An outermost group becomes one entry or none

While a group is open, further groups are opened and closed in it and entries
are carried out, of which some change something, some do nothing and some fail.
When the outermost group is closed, the history is as it was before if nothing
was changed, and has one new entry otherwise, which acts as all commands that
changed something, in order.
-/

namespace MotionScene

/-- A history in use. -/
structure Recording (κ σ : Type) where
  history : History κ
  state : σ
  /-- The rights to close the open groups, innermost first. -/
  tokens : List ScopeToken := []
  /-- The commands that changed the state so far, first to last. -/
  changed : List κ := []

namespace Recording

variable {κ σ : Type}

/-- A call of a history that records. -/
inductive Call (κ : Type) where
  | beginGroup (label : String)
  | push (entry : Entry κ)
  | endGroup

/-- Calls that close the groups they open, and no others. -/
inductive Nested : List (Call κ) → Prop where
  | nil : Nested []
  | push
      (entry : Entry κ)
      {rest : List (Call κ)}
      (nested : Nested rest) :
      Nested (.push entry :: rest)
  | group
      (label : String)
      {inner rest : List (Call κ)}
      (inside : Nested inner)
      (nested : Nested rest) :
      Nested (.beginGroup label :: inner ++ .endGroup :: rest)

/-! ## Recording -/

/-- Recording several entries while a group is open puts them into it. -/
theorem foldl_record_of_open
    {history : History κ}
    {scope : Scope κ}
    {outer : List (Scope κ)}
    (isOpen : history.scopes = scope :: outer)
    (parts : List (Entry κ)) :
    parts.foldl History.record history =
      { history with
        scopes :=
          { scope with parts := parts.reverse ++ scope.parts } :: outer } := by
  induction parts generalizing history scope with
  | nil =>
      rw [List.foldl_nil, List.reverse_nil, List.nil_append, ← isOpen]
  | cons part rest inductionHypothesis =>
      rw [List.foldl_cons, History.record_of_open isOpen,
        inductionHypothesis rfl, List.reverse_cons, List.append_assoc]
      rfl

theorem corrupted_foldl_record (history : History κ) (parts : List (Entry κ)) :
    (parts.foldl History.record history).corrupted = history.corrupted := by
  induction parts generalizing history with
  | nil => rfl
  | cons part rest inductionHypothesis =>
      rw [List.foldl_cons, inductionHypothesis, History.corrupted_record]

/-- A group is closed with its token: it leaves no trace if nothing was recorded
in it, and is recorded otherwise. -/
theorem endGroup_of_recorded
    (history : History κ)
    (label : String)
    (parts : List (Entry κ)) :
    { history with scopes := ⟨label, parts.reverse⟩ :: history.scopes }.endGroup
        ⟨history.scopes.length + 1⟩ =
      .ok (if parts.isEmpty then (history, .noop)
        else (history.record (.group label parts), .changed)) := by
  rw [History.endGroup]
  simp only [List.length_cons, ne_eq, not_true_eq_false, if_false,
    List.isEmpty_reverse, Scope.entry, List.reverse_reverse]
  split <;> rfl

variable {recording after : Recording κ σ} {parts : List (Entry κ)}

/-- Calls that record parts, which consist of all that changed something. -/
structure Adds
    (before after : Recording κ σ)
    (parts : List (Entry κ)) : Prop where
  solid : parts ≠ [] → Entry.commandsOf parts ≠ []
  history : after.history = parts.foldl History.record before.history
  tokens : after.tokens = before.tokens
  changed : after.changed = before.changed ++ Entry.commandsOf parts

namespace Adds

theorem nothing (recording : Recording κ σ) (state : σ) :
    Adds recording { recording with state } [] :=
  ⟨fun some => absurd rfl some, rfl, rfl, (List.append_nil _).symm⟩

theorem trans
    {middle : Recording κ σ}
    {others : List (Entry κ)}
    (first : Adds recording middle parts)
    (second : Adds middle after others) :
    Adds recording after (parts ++ others) := by
  refine ⟨fun some => ?_, ?_, second.tokens.trans first.tokens, ?_⟩
  · cases parts with
    | nil => exact second.solid some
    | cons part rest =>
        rw [Entry.commandsOf_append]
        exact List.append_ne_nil_of_left_ne_nil
          (first.solid (List.cons_ne_nil part rest)) _
  · rw [second.history, first.history, List.foldl_append]
  · rw [second.changed, first.changed, Entry.commandsOf_append,
      List.append_assoc]

theorem intact
    (adds : Adds recording after parts)
    (intact : recording.history.corrupted = none) :
    after.history.corrupted = none := by
  rw [adds.history, corrupted_foldl_record, intact]

end Adds

/-! ## Calls -/

variable [Reversible κ σ]

/-- What a call does.  A group is closed with the token that opening it gave. -/
def perform (recording : Recording κ σ) : Call κ → Recording κ σ
  | .beginGroup label =>
    match recording.history.beginGroup label with
    | .ok (history, token) =>
      { recording with history, tokens := token :: recording.tokens }
    | .error _ => recording
  | .push entry =>
    let step := recording.history.push recording.state entry
    { recording with
      history := step.command
      state := step.state
      changed :=
        match step.result with
        | .ok .changed =>
          recording.changed ++
            (Reversible.carryOut entry.commands recording.state).command
        | _ => recording.changed }
  | .endGroup =>
    match recording.tokens with
    | [] => recording
    | token :: outer =>
      match recording.history.endGroup token with
      | .ok (history, _) => { recording with history, tokens := outer }
      | .error _ => { recording with tokens := outer }

/-- What calls do one after the other. -/
def run (recording : Recording κ σ) (calls : List (Call κ)) : Recording κ σ :=
  calls.foldl perform recording

theorem run_append (recording : Recording κ σ) (calls others : List (Call κ)) :
    recording.run (calls ++ others) = (recording.run calls).run others :=
  List.foldl_append

theorem run_group
    (recording : Recording κ σ)
    (label : String)
    (calls : List (Call κ)) :
    recording.run (.beginGroup label :: calls ++ [.endGroup]) =
      ((recording.perform (.beginGroup label)).run calls).perform .endGroup :=
  run_append recording (.beginGroup label :: calls) [.endGroup]

/-- A history that cannot be relied on refuses all calls. -/
theorem run_of_corrupted
    {reason : String}
    (corrupted : recording.history.corrupted = some reason)
    (idle : recording.tokens = [])
    (calls : List (Call κ)) :
    recording.run calls = recording := by
  have refused : recording.history.checkUsable =
      .error (.historyCorruption "history" reason) := by
    rw [History.checkUsable, corrupted]
  induction calls with
  | nil => rfl
  | cons call rest inductionHypothesis =>
      have unchanged : recording.perform call = recording := by
        cases call with
        | beginGroup label =>
            rw [perform, History.beginGroup, refused]
            rfl
        | push entry =>
            rw [perform, History.push, refused]
            rfl
        | endGroup => rw [perform, idle]
      rw [run, List.foldl_cons, unchanged]
      exact inductionHypothesis

theorem checkUsable_of_intact
    {history : History κ}
    (intact : history.corrupted = none) :
    history.checkUsable = .ok () := by
  rw [History.checkUsable, intact]

theorem perform_beginGroup
    (intact : recording.history.corrupted = none)
    (label : String) :
    recording.perform (.beginGroup label) =
      { recording with
        history :=
          { recording.history with
            scopes := ⟨label, []⟩ :: recording.history.scopes }
        tokens :=
          ⟨recording.history.scopes.length + 1⟩ :: recording.tokens } := by
  rw [perform, History.beginGroup, checkUsable_of_intact intact]
  rfl

theorem corrupted_beginGroup
    (recording : Recording κ σ)
    (intact : recording.history.corrupted = none)
    (label : String) :
    (recording.perform (.beginGroup label)).history.corrupted = none := by
  rw [perform_beginGroup intact, intact]

/-- An entry is recorded if it changes something. -/
theorem Adds.push
    (intact : recording.history.corrupted = none)
    (entry : Entry κ) :
    ∃ parts, Adds recording (recording.perform (.push entry)) parts := by
  rw [perform, History.push, checkUsable_of_intact intact]
  rcases step : entry.apply recording.state with ⟨after, state, _ | _ | _⟩
  · exact ⟨[], .nothing recording state⟩
  · obtain ⟨carriedOut, some⟩ := Entry.carryOut_of_changed step
    have same := Entry.commandsOf_singleton after
    refine ⟨[after], fun _ => by rwa [same], rfl, rfl, ?_⟩
    simp only [carriedOut, same]
  · exact ⟨[], .nothing recording state⟩

/-- A group is recorded when it is closed, if anything was recorded in it. -/
theorem Adds.group
    (intact : recording.history.corrupted = none)
    {label : String}
    (inside : Adds (recording.perform (.beginGroup label)) after parts) :
    Adds recording (after.perform .endGroup)
      (if parts.isEmpty then [] else [.group label parts]) := by
  rw [perform_beginGroup intact] at inside
  obtain ⟨solid, history, tokens, changed⟩ := inside
  rw [foldl_record_of_open rfl, List.append_nil] at history
  rw [perform, tokens]
  simp only [history, endGroup_of_recorded]
  cases parts with
  | nil => exact ⟨solid, rfl, rfl, changed⟩
  | cons part rest =>
      have same := Entry.commandsOf_singleton (.group label (part :: rest))
      have some := solid (List.cons_ne_nil part rest)
      rw [Entry.commands] at same
      rw [← same] at some changed
      exact ⟨fun _ => some, rfl, rfl, changed⟩

/-- Nested calls record parts. -/
theorem Nested.run
    {calls : List (Call κ)}
    (nested : Nested calls)
    (recording : Recording κ σ)
    (intact : recording.history.corrupted = none) :
    ∃ parts, Adds recording (recording.run calls) parts := by
  induction nested generalizing recording with
  | nil => exact ⟨[], .nothing recording recording.state⟩
  | push entry _ inductionHypothesis =>
      obtain ⟨pushed, first⟩ := Adds.push intact entry
      obtain ⟨parts, later⟩ := inductionHypothesis _ (first.intact intact)
      exact ⟨_, first.trans later⟩
  | group label _ _ insideHypothesis restHypothesis =>
      obtain ⟨innerParts, inside⟩ :=
        insideHypothesis _ (corrupted_beginGroup recording intact label)
      have first := inside.group intact
      obtain ⟨parts, later⟩ := restHypothesis _ (first.intact intact)
      rw [run_append]
      exact ⟨_, first.trans later⟩

/-- When an outermost group is closed, the history is as it was if nothing in it
changed anything.  Otherwise the log is cut at the cursor and has one new entry,
with the label of the outermost group, before it is trimmed.  That entry acts as
all commands that changed something, first to last, and so does what it is after
it has been taken back. -/
theorem one_entry_or_none
    (history : History κ)
    (state : σ)
    (idle : history.scopes = [])
    (label : String)
    {calls : List (Call κ)}
    (nested : Nested calls) :
    let final := Recording.run { history, state }
      (.beginGroup label :: calls ++ [.endGroup])
    (final.changed = [] → final.history = history) ∧
      (final.changed ≠ [] → ∃ parts,
        let entry := Entry.group label parts
        let kept := History.latest history.maxEntries
          (history.entries.take history.cursor ++ [entry])
        final.history =
            { history with entries := kept, cursor := kept.length } ∧
          entry.commands = final.changed ∧
          entry.ActsAs final.changed ∧
          ∀ later : σ, (entry.revert later).command.ActsAs
            (Reversible.takeBack final.changed.reverse
              later).command.reverse) := by
  intro final
  rcases Option.eq_none_or_eq_some history.corrupted with
    intact | ⟨reason, corrupted⟩
  · obtain ⟨parts, inside⟩ :=
      nested.run _ (corrupted_beginGroup { history, state } intact label)
    have closed := inside.group intact
    rw [← run_group] at closed
    have recorded : final.history = _ := closed.history
    have changed : final.changed = _ := closed.changed
    cases parts with
    | nil => exact ⟨fun _ => recorded, fun some => absurd changed some⟩
    | cons part rest =>
        rw [List.isEmpty_cons, if_neg Bool.false_ne_true,
          Entry.commandsOf_singleton, List.nil_append] at changed
        rw [List.isEmpty_cons, if_neg Bool.false_ne_true, List.foldl_cons,
          List.foldl_nil, History.record_of_idle idle] at recorded
        refine ⟨fun none => ?_,
          fun _ => ⟨part :: rest, recorded, changed.symm, ?_, ?_⟩⟩
        · exact absurd (changed.symm.trans none)
            (inside.solid (List.cons_ne_nil part rest))
        · rw [changed]
          exact Entry.actsAs_commands _
        · intro later
          rw [changed, ← Entry.commands_revert]
          exact Entry.actsAs_commands _
  · have refused : final = { history, state } :=
      run_of_corrupted corrupted rfl _
    rw [refused]
    exact ⟨fun _ => rfl, fun changed => absurd rfl changed⟩

/-- An entry that selects owners. -/
def selecting (owners : List Nat) : Entry Edit :=
  .single (.setSelection {
    selection := owners.foldl (fun chosen owner => chosen.insert ⟨owner⟩) ∅ })

/-- Selects one owner, and another one in an inner group, where selecting a
third one fails; an inner group that changes nothing follows. -/
def picking : List (Call Edit) :=
  .push (selecting [1]) ::
    .beginGroup "Inner" ::
    [.push (selecting [1, 2]), .push (selecting [7])] ++ .endGroup ::
      (.beginGroup "Idle" :: [.push (selecting [1, 2])] ++ .endGroup :: [])

theorem nested_picking : Nested picking :=
  .push _ (.group _ (.push _ (.push _ .nil)) (.group _ (.push _ .nil) .nil))

/-- A history that keeps one entry, has one, and could carry out another one. -/
def crowded : History Edit :=
  { entries := [selecting [1], selecting [2]], cursor := 1, maxEntries := 1 }

theorem one_entry_of_picking :
    (Recording.run { history := crowded, state := Document.new ⟨0⟩ {} }
        (.beginGroup "Pick" :: picking ++ [.endGroup])).changed.length = 2 ∧
      ∃ parts, (Recording.run
        { history := crowded, state := Document.new ⟨0⟩ {} }
        (.beginGroup "Pick" :: picking ++ [.endGroup])).history =
          { entries := [.group "Pick" parts], cursor := 1,
            maxEntries := 1 } := by
  refine ⟨rfl, ?_⟩
  obtain ⟨parts, recorded, _⟩ :=
    (one_entry_or_none crowded (Document.new ⟨0⟩ {})
      rfl "Pick" nested_picking).2 (List.ne_nil_of_length_eq_add_one rfl)
  exact ⟨parts, recorded⟩

end Recording
end MotionScene
