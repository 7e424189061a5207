import MotionScene.Command.Reversible

/-!
# Groups as sequences of commands

The parts of a group may be groups themselves.  Taking an entry back takes back
all commands that are in it, at whatever depth, last first, and carrying it out
carries them out in order.
-/

namespace MotionScene

/-! ## Commands one by one -/

namespace Step

variable {ε σ : Type}

/-- Goes on after a step that succeeded, and collects what both give. -/
def andThen (first : Step (List ε) σ Unit) (next : σ → Step (List ε) σ Unit) :
    Step (List ε) σ Unit :=
  match first.result with
  | .ok () =>
    let second := next first.state
    ⟨first.command ++ second.command, second.state, second.result⟩
  | .error _ => first

theorem andThen_of_ok
    (items : List ε)
    (state : σ)
    (done : Unit)
    (next : σ → Step (List ε) σ Unit) :
    andThen ⟨items, state, .ok done⟩ next =
      ⟨items ++ (next state).command, (next state).state,
        (next state).result⟩ :=
  rfl

theorem andThen_assoc
    (first : Step (List ε) σ Unit)
    (second third : σ → Step (List ε) σ Unit) :
    first.andThen (fun middle => (second middle).andThen third) =
      (first.andThen second).andThen third := by
  rcases first with ⟨items, middle, _ | _⟩
  · rfl
  · rw [andThen_of_ok, andThen_of_ok]
    rcases second middle with ⟨others, later, _ | _⟩
    · rfl
    · simp [andThen_of_ok]

end Step

namespace Reversible

variable {κ σ : Type} [Reversible κ σ] {first second taken : List κ}
  {state middle final : σ} {fault : Fault}

/-- Takes commands back one after the other, up to the first failure.  The
commands are given as they are then, also those that it did not come to. -/
def takeBack : List κ → σ → Step (List κ) σ Unit
  | [], state => ⟨[], state, .ok ()⟩
  | command :: rest, state =>
    let step := revert command state
    match step.result with
    | .error fault => ⟨step.command :: rest, step.state, .error fault⟩
    | .ok () =>
      let others := takeBack rest step.state
      ⟨step.command :: others.command, others.state, others.result⟩

/-- Carries a command out, and gives it if it changed something. -/
def carryOutOne (command : κ) (state : σ) : Step (List κ) σ Unit :=
  let step := apply command state
  match step.result with
  | .ok .changed => ⟨[step.command], step.state, .ok ()⟩
  | .ok .noop => ⟨[], step.state, .ok ()⟩
  | .error fault => ⟨[], step.state, .error fault⟩

/-- Carries commands out one after the other, up to the first failure, and
gives those that changed something. -/
def carryOut : List κ → σ → Step (List κ) σ Unit
  | [], state => ⟨[], state, .ok ()⟩
  | command :: rest, state =>
    (carryOutOne command state).andThen (carryOut rest)

theorem takeBack_append_of_ok
    (done : takeBack first state = ⟨taken, middle, .ok ()⟩) :
    takeBack (first ++ second) state =
      ⟨taken ++ (takeBack second middle).command,
        (takeBack second middle).state, (takeBack second middle).result⟩ := by
  induction first generalizing state taken with
  | nil =>
      cases done
      rfl
  | cons command rest inductionHypothesis =>
      rw [List.cons_append, takeBack]
      rcases step : revert command state with ⟨after, between, fault | _⟩
      · rw [takeBack, step] at done
        cases done
      · rw [takeBack, step] at done
        obtain ⟨rfl, isMiddle, isOk⟩ := Step.mk.inj done
        have others : takeBack rest between =
            ⟨(takeBack rest between).command, middle, .ok ()⟩ := by
          rw [← isMiddle, ← isOk]
        simp only [inductionHypothesis others, List.cons_append]

theorem takeBack_append_of_error
    (failed : takeBack first state = ⟨taken, middle, .error fault⟩) :
    takeBack (first ++ second) state =
      ⟨taken ++ second, middle, .error fault⟩ := by
  induction first generalizing state taken with
  | nil => cases failed
  | cons command rest inductionHypothesis =>
      rw [List.cons_append, takeBack]
      rcases step : revert command state with ⟨after, between, reason | _⟩
      · rw [takeBack, step] at failed
        obtain ⟨rfl, rfl, isFault⟩ := Step.mk.inj failed
        cases isFault
        rfl
      · rw [takeBack, step] at failed
        obtain ⟨rfl, isMiddle, isFault⟩ := Step.mk.inj failed
        have others : takeBack rest between =
            ⟨(takeBack rest between).command, middle, .error fault⟩ := by
          rw [← isMiddle, ← isFault]
        simp only [inductionHypothesis others, List.cons_append]

theorem of_takeBack_append
    (back : takeBack (first ++ second) state = ⟨taken, final, .ok ()⟩) :
    ∃ takenFirst middle takenSecond,
      takeBack first state = ⟨takenFirst, middle, .ok ()⟩ ∧
        takeBack second middle = ⟨takenSecond, final, .ok ()⟩ := by
  rcases isFirst : takeBack first state with ⟨takenFirst, middle, fault | _⟩
  · rw [takeBack_append_of_error isFirst] at back
    cases back
  · rw [takeBack_append_of_ok isFirst] at back
    obtain ⟨_, isFinal, isOk⟩ := Step.mk.inj back
    exact ⟨takenFirst, middle, _, rfl, by rw [← isFinal, ← isOk]⟩

theorem carryOut_append (first second : List κ) (state : σ) :
    carryOut (first ++ second) state =
      (carryOut first state).andThen (carryOut second) := by
  induction first generalizing state with
  | nil => rfl
  | cons command rest inductionHypothesis =>
      have step : carryOut (rest ++ second) = fun middle =>
          (carryOut rest middle).andThen (carryOut second) :=
        funext inductionHypothesis
      rw [List.cons_append, carryOut, carryOut, step, Step.andThen_assoc]

theorem carryOut_singleton (command : κ) (state : σ) :
    carryOut [command] state = carryOutOne command state := by
  rw [carryOut, carryOutOne]
  rcases apply command state with ⟨after, middle, fault | _ | _⟩ <;> rfl

end Reversible

namespace Entry

variable {κ σ : Type}

mutual

/-- The commands of an entry, first to last, at whatever depth they are. -/
def commands : Entry κ → List κ
  | single command => [command]
  | group _ parts => commandsOf parts

/-- The commands of several entries, first to last. -/
def commandsOf : List (Entry κ) → List κ
  | [] => []
  | part :: rest => part.commands ++ commandsOf rest

end

theorem commandsOf_append (first second : List (Entry κ)) :
    commandsOf (first ++ second) = commandsOf first ++ commandsOf second := by
  induction first with
  | nil => rfl
  | cons part rest inductionHypothesis =>
      rw [List.cons_append, commandsOf, inductionHypothesis, commandsOf,
        List.append_assoc]

theorem commandsOf_singleton (part : Entry κ) :
    commandsOf [part] = part.commands :=
  List.append_nil _

theorem mem_commandsOf_iff {command : κ} {parts : List (Entry κ)} :
    command ∈ commandsOf parts ↔ ∃ part ∈ parts, command ∈ part.commands := by
  induction parts with
  | nil => simp [commandsOf]
  | cons part rest inductionHypothesis => simp [commandsOf, inductionHypothesis]

theorem forall_mem_commandsOf_iff
    {parts : List (Entry κ)}
    {demand : κ → Prop} :
    (∀ command ∈ commandsOf parts, demand command) ↔
      ∀ part ∈ parts, ∀ command ∈ part.commands, demand command := by
  simp only [mem_commandsOf_iff, forall_exists_index, and_imp]
  exact ⟨fun all part isPart command member => all command part isPart member,
    fun all command part isPart member => all part isPart command member⟩

variable [Reversible κ σ] {parts earlier later taken changed : List (Entry κ)}
  {state middle final : σ} {fault : Fault}

/-! ## Taking back -/

mutual

/-- Taking an entry back takes its commands back, last first, up to the first
failure. -/
theorem revert_map_commands : ∀ (entry : Entry κ) (state : σ),
    (entry.revert state).map commands =
      (Reversible.takeBack entry.commands.reverse state).map List.reverse
  | single command, state => by
      rw [revert, commands, List.reverse_singleton, Reversible.takeBack]
      rcases Reversible.revert command state with ⟨after, middle, _ | _⟩ <;> rfl
  | group _ parts, state => revertParts_map_commandsOf parts state

theorem revertParts_map_commandsOf : ∀ (parts : List (Entry κ)) (state : σ),
    (revertParts parts state).map commandsOf =
      (Reversible.takeBack (commandsOf parts).reverse state).map List.reverse
  | [], _ => rfl
  | part :: rest, state => by
      have others := revertParts_map_commandsOf rest state
      rw [revertParts, commandsOf, List.reverse_append]
      rcases parts : revertParts rest state with ⟨takenRest, middle, result⟩
      rcases back : Reversible.takeBack (commandsOf rest).reverse state with
        ⟨taken, _, _⟩
      rw [parts, back] at others
      obtain ⟨isTaken, rfl, rfl⟩ := Step.mk.inj others
      cases result with
      | error fault =>
          rw [Reversible.takeBack_append_of_error back]
          simp only [Step.map, commandsOf, isTaken, List.reverse_append,
            List.reverse_reverse]
      | ok _ =>
          have last := revert_map_commands part middle
          obtain ⟨isLast, isState, isResult⟩ := Step.mk.inj last
          rw [Reversible.takeBack_append_of_ok back]
          simp only [Step.map, commandsOf, isTaken, isLast, isState, isResult,
            List.reverse_append]

end

/-- The commands of an entry that was taken back. -/
theorem commands_revert (entry : Entry κ) (state : σ) :
    (entry.revert state).command.commands =
      (Reversible.takeBack entry.commands.reverse state).command.reverse :=
  (Step.mk.inj (entry.revert_map_commands state)).1

/-- Entries can be taken back when their commands can be. -/
theorem revertParts_of_takeBack
    {taken : List κ}
    (back : Reversible.takeBack (commandsOf parts).reverse state =
      ⟨taken, final, .ok ()⟩) :
    ∃ takenParts, revertParts parts state = ⟨takenParts, final, .ok ()⟩ := by
  have same := revertParts_map_commandsOf parts state
  generalize revertParts parts state = step at same
  rcases step with ⟨takenParts, left, result⟩
  simp only [back, Step.map, Step.mk.injEq] at same
  obtain ⟨_, rfl, rfl⟩ := same
  exact ⟨takenParts, rfl⟩

theorem revertParts_singleton (part : Entry κ) (state : σ) :
    revertParts [part] state =
      ⟨[(part.revert state).command], (part.revert state).state,
        (part.revert state).result⟩ := by
  simp only [revertParts]

theorem revertParts_append_of_ok
    (done : revertParts later state = ⟨taken, middle, .ok ()⟩) :
    revertParts (earlier ++ later) state =
      ⟨(revertParts earlier middle).command ++ taken,
        (revertParts earlier middle).state,
        (revertParts earlier middle).result⟩ := by
  induction earlier with
  | nil => simp [revertParts, done]
  | cons part rest inductionHypothesis =>
      rw [List.cons_append, revertParts, inductionHypothesis, revertParts]
      cases (revertParts rest middle).result <;> rfl

theorem revertParts_append_of_error
    (failed : revertParts later state = ⟨taken, middle, .error fault⟩) :
    revertParts (earlier ++ later) state =
      ⟨earlier ++ taken, middle, .error fault⟩ := by
  induction earlier with
  | nil => exact failed
  | cons part rest inductionHypothesis =>
      rw [List.cons_append, revertParts, inductionHypothesis]
      rfl

/-- Taking entries back because another one failed is taking them back; only a
failure is reported in another way. -/
theorem rollback_eq_revertParts (applied : List (Entry κ)) (state : σ) :
    (rollback applied state).command =
        (revertParts applied.reverse state).command.reverse ∧
      (rollback applied state).state =
        (revertParts applied.reverse state).state ∧
      ((rollback applied state).result = .ok () ↔
        (revertParts applied.reverse state).result = .ok ()) := by
  induction applied generalizing state with
  | nil => simp [rollback, revertParts]
  | cons part rest inductionHypothesis =>
      rw [List.reverse_cons, rollback]
      cases step : part.revert state with
      | mk command middle result =>
          have last : revertParts [part] state =
              ⟨[command], middle, result⟩ := by
            rw [revertParts_singleton, step]
          cases result with
          | error fault =>
              rw [revertParts_append_of_error last]
              simp
          | ok _ =>
              obtain ⟨commandSame, stateSame, resultSame⟩ :=
                inductionHypothesis middle
              rw [revertParts_append_of_ok last]
              simp [commandSame, stateSame, resultSame]

/-! ## Carrying out -/

/-- Carries an entry out, and gives it if it changed something. -/
def carryOutOne (part : Entry κ) (state : σ) : Step (List (Entry κ)) σ Unit :=
  let step := part.apply state
  match step.result with
  | .ok .changed => ⟨[step.command], step.state, .ok ()⟩
  | .ok .noop => ⟨[], step.state, .ok ()⟩
  | .error fault => ⟨[], step.state, .error fault⟩

/-- Carries entries out in order, up to the first failure, and gives those that
changed something. -/
def carryOut : List (Entry κ) → σ → Step (List (Entry κ)) σ Unit
  | [], state => ⟨[], state, .ok ()⟩
  | part :: rest, state => (part.carryOutOne state).andThen (carryOut rest)

/-- What a group makes of its parts having been carried out in order: when one
failed, it takes the others back. -/
def settle (run : Step (List (Entry κ)) σ Unit) :
    Step (List (Entry κ)) σ Outcome :=
  match run.result with
  | .ok () =>
    ⟨run.command, run.state,
      .ok (if run.command.isEmpty then .noop else .changed)⟩
  | .error fault =>
    let undone := rollback run.command.reverse run.state
    match undone.result with
    | .ok () => ⟨undone.command.reverse, undone.state, .error fault⟩
    | .error corruption => ⟨[], undone.state, .error corruption⟩

theorem applyParts_eq_settle (parts applied : List (Entry κ)) (state : σ) :
    applyParts parts applied state =
      settle (Step.andThen ⟨applied.reverse, state, .ok ()⟩
        (carryOut parts)) := by
  induction parts generalizing applied state with
  | nil => simp [applyParts, carryOut, settle, Step.andThen]
  | cons part rest inductionHypothesis =>
      have step : carryOut (part :: rest) = fun middle =>
          (part.carryOutOne middle).andThen (carryOut rest) := rfl
      rw [applyParts, step, Step.andThen_assoc, Step.andThen_of_ok, carryOutOne]
      cases part.apply state with
      | mk command middle result =>
          cases result with
          | error fault =>
              cases undone : (rollback applied middle).result <;>
                simp only [Step.andThen, settle, List.append_nil,
                  List.reverse_reverse, undone]
          | ok outcome =>
              cases outcome with
              | changed => simp only [inductionHypothesis, List.reverse_cons]
              | noop => simp only [inductionHypothesis, List.append_nil]

theorem apply_group (label : String) (parts : List (Entry κ)) (state : σ) :
    (group label parts).apply state =
      (settle (carryOut parts state)).map (group label) := by
  rw [apply, applyParts_eq_settle]
  rfl

/-- A group leaves nothing behind if all that it had done can be taken back. -/
theorem settle_of_error
    (fault : Fault)
    (back : revertParts changed middle = ⟨taken, final, .ok ()⟩) :
    settle ⟨changed, middle, .error fault⟩ =
      ⟨taken, final, .error fault⟩ := by
  obtain ⟨commandSame, stateSame, resultSame⟩ :=
    rollback_eq_revertParts changed.reverse middle
  rw [List.reverse_reverse, back] at commandSame stateSame resultSame
  simp only [settle, resultSame.2 rfl, commandSame, stateSame,
    List.reverse_reverse]

theorem settle_fails (changed : List (Entry κ)) (middle : σ) (fault : Fault) :
    ∃ corruption,
      (settle ⟨changed, middle, .error fault⟩).result = .error corruption := by
  rw [settle]
  simp only
  split <;> exact ⟨_, rfl⟩

/-- Carrying out entries comes to the same as carrying out their commands.  When
one fails, the groups around it have been taken back, so the two can only be
compared after all that was done has been taken back. -/
inductive Agrees :
    Step (List (Entry κ)) σ Unit → Step (List κ) σ Unit → Prop where
  | done
      {entries : List (Entry κ)}
      (nonempty : entries ≠ [] → commandsOf entries ≠ [])
      (final : σ) :
      Agrees ⟨entries, final, .ok ()⟩ ⟨commandsOf entries, final, .ok ()⟩
  | failed
      {entries : List (Entry κ)}
      {changed : List κ}
      {left middle : σ}
      {reported fault : Fault}
      (takenBack : ∀ taken final,
        Reversible.takeBack changed.reverse middle = ⟨taken, final, .ok ()⟩ →
          reported = fault ∧ ∃ others,
            Reversible.takeBack (commandsOf entries).reverse left =
              ⟨others, final, .ok ()⟩) :
      Agrees ⟨entries, left, .error reported⟩ ⟨changed, middle, .error fault⟩

namespace Agrees

variable {nested : Step (List (Entry κ)) σ Unit} {flat : Step (List κ) σ Unit}

theorem single (command : κ) (state : σ) :
    Agrees ((Entry.single command).carryOutOne state)
      (Reversible.carryOut [command] state) := by
  rw [Reversible.carryOut_singleton, Reversible.carryOutOne, Entry.carryOutOne,
    Entry.apply]
  rcases Reversible.apply command state with ⟨after, middle, fault | _ | _⟩
  · exact .failed fun taken _ back => ⟨rfl, taken, back⟩
  · have solid : commandsOf [Entry.single after] ≠ [] :=
      List.cons_ne_nil after []
    exact .done (fun _ => solid) middle
  · exact .done (fun nonempty => absurd rfl nonempty) middle

/-- Agreement goes on after agreement. -/
theorem andThen
    {nestedNext : σ → Step (List (Entry κ)) σ Unit}
    {flatNext : σ → Step (List κ) σ Unit}
    (agrees : Agrees nested flat)
    (next : ∀ middle, Agrees (nestedNext middle) (flatNext middle)) :
    Agrees (nested.andThen nestedNext) (flat.andThen flatNext) := by
  cases agrees with
  | failed takenBack => exact .failed takenBack
  | @done entries nonempty middle =>
      have later := next middle
      rw [Step.andThen_of_ok, Step.andThen_of_ok]
      generalize nestedNext middle = nestedLater at later
      generalize flatNext middle = flatLater at later
      cases later with
      | @done others nonemptyLater final =>
          rw [← commandsOf_append]
          refine .done (fun some => ?_) final
          cases entries with
          | nil => exact nonemptyLater some
          | cons part rest =>
              rw [commandsOf_append]
              exact List.append_ne_nil_of_left_ne_nil
                (nonempty (List.cons_ne_nil part rest)) _
      | failed takenBack =>
          refine .failed fun taken final back => ?_
          rw [List.reverse_append] at back
          obtain ⟨takenLater, between, takenEarlier, backLater, backEarlier⟩ :=
            Reversible.of_takeBack_append back
          obtain ⟨sameFault, others, othersBack⟩ := takenBack _ _ backLater
          rw [commandsOf_append, List.reverse_append,
            Reversible.takeBack_append_of_ok othersBack, backEarlier]
          exact ⟨sameFault, _, rfl⟩

/-- Carrying out a group agrees with whatever carrying out its parts agrees
with. -/
theorem group
    (agrees : Agrees (Entry.carryOut parts state) flat)
    (label : String) :
    Agrees ((Entry.group label parts).carryOutOne state) flat := by
  rw [Entry.carryOutOne, apply_group]
  generalize Entry.carryOut parts state = nested at agrees
  cases agrees with
  | @done entries nonempty final =>
      cases entries with
      | nil => exact .done (fun some => absurd rfl some) final
      | cons part rest =>
          have same := commandsOf_singleton (Entry.group label (part :: rest))
          have solid := nonempty (List.cons_ne_nil part rest)
          rw [commands] at same
          rw [← same] at solid ⊢
          exact .done (fun _ => solid) final
  | @failed entries changed left middle reported fault takenBack =>
      obtain ⟨corruption, fails⟩ := settle_fails entries left reported
      simp only [Step.map, fails]
      refine .failed fun taken final back => ?_
      obtain ⟨rfl, others, othersBack⟩ := takenBack taken final back
      obtain ⟨takenParts, partsBack⟩ := revertParts_of_takeBack othersBack
      -- The group has taken back what it did, so nothing is left to take back.
      rw [settle_of_error _ partsBack] at fails ⊢
      cases fails
      exact ⟨rfl, [], rfl⟩

end Agrees

mutual

/-- Carrying out an entry comes to the same as carrying out its commands. -/
theorem carryOutOne_agrees : ∀ (entry : Entry κ) (state : σ),
    Agrees (entry.carryOutOne state)
      (Reversible.carryOut entry.commands state)
  | single command, state => .single command state
  | group label parts, state => (carryOut_agrees parts state).group label

theorem carryOut_agrees : ∀ (parts : List (Entry κ)) (state : σ),
    Agrees (carryOut parts state)
      (Reversible.carryOut (commandsOf parts) state)
  | [], state => .done (fun some => absurd rfl some) state
  | part :: rest, state => by
      rw [commandsOf, Reversible.carryOut_append]
      exact (carryOutOne_agrees part state).andThen (carryOut_agrees rest)

end

/-- An entry that changed something was carried out command by command. -/
theorem carryOut_of_changed
    {entry after : Entry κ}
    (done : entry.apply state = ⟨after, final, .ok .changed⟩) :
    Reversible.carryOut entry.commands state =
        ⟨after.commands, final, .ok ()⟩ ∧
      after.commands ≠ [] := by
  have agrees := entry.carryOutOne_agrees state
  rw [carryOutOne, done] at agrees
  generalize Reversible.carryOut entry.commands state = flat at agrees
  cases agrees with
  | done nonempty =>
      rw [commandsOf_singleton] at nonempty ⊢
      exact ⟨rfl, nonempty (List.cons_ne_nil _ _)⟩

/-! ## Entries as sequences -/

/-- An entry that does what commands do one by one. -/
structure ActsAs (entry : Entry κ) (commands : List κ) : Prop where
  /-- Taking the entry back takes the commands back, last first, up to the first
  failure. -/
  revert : ∀ state,
    (entry.revert state).state =
        (Reversible.takeBack commands.reverse state).state ∧
      (entry.revert state).result =
        (Reversible.takeBack commands.reverse state).result
  /-- Carrying the entry out carries the commands out in order. -/
  apply : ∀ state changed final,
    Reversible.carryOut commands state = ⟨changed, final, .ok ()⟩ →
      (entry.apply state).state = final ∧
        (entry.apply state).result =
          .ok (if changed.isEmpty then .noop else .changed)
  /-- When one of them fails, so does the entry, and those before are taken
  back; if they can be, the entry fails as that one did. -/
  apply_fails : ∀ state changed middle fault,
    Reversible.carryOut commands state = ⟨changed, middle, .error fault⟩ →
      (∃ corruption, (entry.apply state).result = .error corruption) ∧
        ∀ taken final,
          Reversible.takeBack changed.reverse middle =
              ⟨taken, final, .ok ()⟩ →
            (entry.apply state).state = final ∧
              (entry.apply state).result = .error fault

/-- An entry does what its commands do one by one. -/
theorem actsAs_commands (entry : Entry κ) : entry.ActsAs entry.commands := by
  constructor
  · intro state
    exact (Step.mk.inj (entry.revert_map_commands state)).2
  · intro state changed final done
    have agrees := entry.carryOutOne_agrees state
    rcases step : entry.apply state with ⟨after, left, fault | _ | _⟩ <;>
      rw [done, carryOutOne, step] at agrees
    · cases agrees
    · cases agrees with
      | done nonempty =>
          have solid := nonempty (List.cons_ne_nil _ _)
          rw [← List.isEmpty_eq_false_iff] at solid
          exact ⟨rfl, by rw [solid]; rfl⟩
    · cases agrees
      exact ⟨rfl, rfl⟩
  · intro state changed middle fault failed
    have agrees := entry.carryOutOne_agrees state
    rcases step : entry.apply state with ⟨after, left, reported | _ | _⟩ <;>
      rw [failed, carryOutOne, step] at agrees
    · cases agrees with
      | failed takenBack =>
          refine ⟨⟨reported, rfl⟩, fun taken final back => ?_⟩
          obtain ⟨rfl, others, nothing⟩ := takenBack taken final back
          exact ⟨(Step.mk.inj nothing).2.1, rfl⟩
    · cases agrees
    · cases agrees

end Entry
end MotionScene
