import MotionScene.Proofs.Command.Reparenting
import MotionScene.Proofs.Scene.DepthFirst

/-!
# What moves change

A run of moves takes owners out of their slots and hangs them elsewhere, one
after the other.  It changes links of moved owners alone: all other owners keep
their order in every list, and each moved one ends up in the list that its last
move names.  A run counts as idle when each of its moves puts its owner back
where it stood; moves that lead away and back again are not noticed.
-/

namespace MotionScene

namespace Scene

/-! ## One move -/

section Transfer

variable {scene : Scene} {id : OwnerId} {old slot : Slot}

/-- The scene with an owner moved from one slot to another. -/
def transferred (scene : Scene) (id : OwnerId) (old slot : Slot) : Scene :=
  (scene.released id old).hung id slot

theorem insertAt_eq (ids : List OwnerId) (index : Nat) (id : OwnerId) :
    insertAt ids index id = ids.take index ++ id :: ids.drop index := by
  simpa using insertAt_then ids index id []

/-- Entries other than the one put in keep their order. -/
theorem filter_insertAt
    {keep : OwnerId → Bool}
    (goes : keep id = false)
    (ids : List OwnerId)
    (index : Nat) :
    (insertAt ids index id).filter keep = ids.filter keep := by
  rw [insertAt_eq, List.filter_append,
    List.filter_cons_of_neg (by simp [goes]), ← List.filter_append,
    List.take_append_drop]

variable
  (linked : scene.Linked ∅)
  (found : scene.slotOf id = some old)
  (check : (scene.released id old).checkAttach id slot = .ok ())
include linked found check

theorem entries_transferred (place : Place) :
    (scene.transferred id old slot).entries place =
      if slot.place = place then
        insertAt ((scene.entries place).filter fun other => other ≠ id)
          slot.index id
      else (scene.entries place).filter fun other => other ≠ id := by
  rw [transferred, entries_hung (offers_of_check check),
    linked.entries_released found]

/-- Owners that stay keep their order in every list. -/
theorem filter_transferred
    {keep : OwnerId → Bool}
    (goes : keep id = false)
    (place : Place) :
    ((scene.transferred id old slot).entries place).filter keep =
      (scene.entries place).filter keep := by
  have stays :
      ((scene.entries place).filter fun other => other ≠ id).filter keep =
      (scene.entries place).filter keep := by
    rw [List.filter_filter]
    refine List.filter_congr fun other _ => ?_
    by_cases same : other = id <;> simp [same, goes]
  rw [entries_transferred linked found check]
  split
  · rw [filter_insertAt goes, stays]
  · exact stays

/-- The moved owner stands once in the list of its new slot, and in no other
one. -/
theorem count_transferred (place : Place) :
    ((scene.transferred id old slot).entries place).count id =
      if place = slot.place then 1 else 0 := by
  have unlisted :
      ((scene.entries place).filter fun other => other ≠ id).count id = 0 :=
    List.count_eq_zero_of_not_mem (by simp)
  rw [entries_transferred linked found check]
  by_cases here : slot.place = place
  · rw [if_pos here, if_pos here.symm, insertAt_eq, List.count_append,
      List.count_cons_self, ← Nat.add_assoc, ← List.count_append,
      List.take_append_drop, unlisted]
  · rw [if_neg here, if_neg (Ne.symm here), unlisted]

theorem linked_transferred : (scene.transferred id old slot).Linked ∅ := by
  have released := linked.released found
  rw [Set.empty_union] at released
  have hung := released.hung rfl check
  rwa [Set.sdiff_self] at hung

/-- An owner that is put into the slot it came from was not moved at all. -/
theorem transferred_eq_self_iff :
    scene.transferred id old slot = scene ↔
      (scene.transferred id old slot).slotOf id = some old := by
  constructor
  · intro same
    rw [same]
    exact found
  · intro same
    exact Reparent.Moved.eq_of_slotOf linked
      ⟨_, slot, detach_eq_ok_iff.2 ⟨found, rfl⟩,
        attach_eq_ok_iff.2 ⟨check, rfl⟩⟩ same

end Transfer

/-! ## Runs of moves -/

/-- A scene in which some owners were moved to slots, in order. -/
structure Rearranges
    (scene : Scene)
    (moves : List (OwnerId × Slot))
    (final : Scene) :
    Prop where
  root : final.root = scene.root
  selection : final.selection = scene.selection
  contents : ∀ id, final.content? id = scene.content? id
  unmoved : ∀ place, (final.entries place).filter
      (fun id => id ∉ moves.map Prod.fst) =
    (scene.entries place).filter fun id => id ∉ moves.map Prod.fst
  parents : ∀ id, id ∉ moves.map Prod.fst →
    final.parentOf id = scene.parentOf id
  moved : ∀ before id slot after, moves = before ++ (id, slot) :: after →
    id ∉ after.map Prod.fst →
    final.parentOf id = slot.host? ∧
      ∀ place, (final.entries place).count id =
        if place = slot.place then 1 else 0

namespace Rearranges

variable {scene final : Scene} {id : OwnerId} {moves : List (OwnerId × Slot)}

theorem nil (scene : Scene) : scene.Rearranges [] scene where
  root := rfl
  selection := rfl
  contents _ := rfl
  unmoved _ := rfl
  parents _ _ := rfl
  moved before id slot after split _ := by cases before <;> cases split

/-- An owner that is not moved is listed as often as before. -/
theorem count_unmoved
    (rearranges : scene.Rearranges moves final)
    (notMoved : id ∉ moves.map Prod.fst)
    (place : Place) :
    (final.entries place).count id = (scene.entries place).count id := by
  have stays : ∀ ids : List OwnerId,
      (ids.filter fun id => id ∉ moves.map Prod.fst).count id = ids.count id :=
    fun ids => List.count_filter (by simpa using notMoved)
  rw [← stays, rearranges.unmoved, stays]

/-- A first move, and the others after it. -/
theorem cons
    {old slot : Slot}
    (linked : scene.Linked ∅)
    (found : scene.slotOf id = some old)
    (check : (scene.released id old).checkAttach id slot = .ok ())
    (rest : (scene.transferred id old slot).Rearranges moves final) :
    scene.Rearranges ((id, slot) :: moves) final := by
  constructor
  case root => simp [rest.root, transferred]
  case selection => simp [rest.selection, transferred]
  case contents => simp [rest.contents, transferred]
  case unmoved =>
    intro place
    have twice : ∀ ids : List OwnerId,
        (ids.filter fun other => other ∉ ((id, slot) :: moves).map Prod.fst) =
          (ids.filter fun other => other ∉ moves.map Prod.fst).filter
              fun other => other ≠ id := by
      intro ids
      rw [List.filter_filter]
      refine List.filter_congr fun other _ => ?_
      simp only [List.map_cons, List.mem_cons, not_or, Bool.decide_and]
    rw [twice, rest.unmoved, ← twice]
    exact filter_transferred linked found check (by simp) place
  case parents =>
    intro other notMoved
    rw [List.map_cons, List.mem_cons, not_or] at notMoved
    rw [rest.parents other notMoved.2, transferred,
      Linked.parentOf_hung_of_ne check notMoved.1, parentOf_released,
      if_neg (Ne.symm notMoved.1)]
  case moved =>
    intro before other target after split last
    cases before with
    | nil =>
        cases split
        refine ⟨?_, fun place => ?_⟩
        · rw [rest.parents id last, transferred,
            Linked.parentOf_hung_self check]
        · rw [rest.count_unmoved last, count_transferred linked found check]
    | cons first others =>
        exact rest.moved others other target after (List.cons.inj split).2 last

end Rearranges
end Scene

namespace Reparent

variable {scene final : Scene} {moves olds : List (OwnerId × Slot)}
  {document : Document} {command : Reparent}

/-- A run of moves from one scene to another, with the slots the owners came
from. -/
inductive Run :
    Scene → List (OwnerId × Slot) → List (OwnerId × Slot) → Scene → Prop where
  | nil (scene : Scene) : Run scene [] [] scene
  | cons
      {scene final : Scene}
      {id : OwnerId}
      {old slot : Slot}
      {moves olds : List (OwnerId × Slot)}
      (found : scene.slotOf id = some old)
      (check : (scene.released id old).checkAttach id slot = .ok ())
      (rest : Run (scene.transferred id old slot) moves olds final) :
      Run scene ((id, slot) :: moves) ((id, old) :: olds) final

theorem moveOne_eq_ok_iff {id : OwnerId} {old slot : Slot} :
    moveOne scene id slot = (final, .ok old) ↔
      scene.slotOf id = some old ∧
        (scene.released id old).checkAttach id slot = .ok () ∧
        final = scene.transferred id old slot := by
  unfold moveOne
  cases isDetached : scene.detach id with
  | error fault =>
      simp only [Prod.mk.injEq, reduceCtorEq, and_false, false_iff]
      rintro ⟨found, _⟩
      rw [Scene.detach_eq_ok_iff.2 ⟨found, rfl⟩] at isDetached
      cases isDetached
  | ok pair =>
      obtain ⟨detached, slotBefore⟩ := pair
      obtain ⟨found, rfl⟩ := Scene.detach_eq_ok_iff.1 isDetached
      simp only [found, Option.some.injEq]
      cases isAttached : (scene.released id slotBefore).attach id slot with
      | ok attached =>
          obtain ⟨check, rfl⟩ := Scene.attach_eq_ok_iff.1 isAttached
          simp only [Prod.mk.injEq, Except.ok.injEq]
          constructor
          · rintro ⟨rfl, rfl⟩
            exact ⟨rfl, check, rfl⟩
          · rintro ⟨rfl, _, rfl⟩
            exact ⟨rfl, rfl⟩
      | error fault =>
          constructor
          · intro done
            simp only at done
            split at done <;> cases done
          · rintro ⟨rfl, check, rfl⟩
            rw [Scene.attach_eq_ok_iff.2 ⟨check, rfl⟩] at isAttached
            cases isAttached

/-- Moves that all succeed make a run. -/
theorem moveAll_eq_ok_iff {done all : List (OwnerId × Slot)} :
    moveAll scene done moves = (final, .ok all) ↔
      ∃ olds, Run scene moves olds final ∧ all = olds.reverse ++ done := by
  constructor
  · intro isDone
    induction moves generalizing scene done with
    | nil =>
        cases isDone
        exact ⟨[], .nil _, rfl⟩
    | cons move rest inductionHypothesis =>
        obtain ⟨id, slot⟩ := move
        rw [moveAll] at isDone
        split at isDone
        · next middle old isMoved =>
          obtain ⟨found, check, rfl⟩ := moveOne_eq_ok_iff.1 isMoved
          obtain ⟨olds, run, rfl⟩ := inductionHypothesis isDone
          exact ⟨(id, old) :: olds, .cons found check run, by simp⟩
        · next left fault isStuck =>
          generalize unwind left done = unwound at isDone
          obtain ⟨unwound, result⟩ := unwound
          cases result <;> cases isDone
  · rintro ⟨olds, run, rfl⟩
    induction run generalizing done with
    | nil => rfl
    | cons found check _ inductionHypothesis =>
        rw [moveAll, moveOne_eq_ok_iff.2 ⟨found, check, rfl⟩]
        simp only [inductionHypothesis, List.reverse_cons, List.append_assoc,
          List.singleton_append]

namespace Run

theorem rearranges
    (linked : scene.Linked ∅)
    (run : Run scene moves olds final) :
    scene.Rearranges moves final := by
  induction run with
  | nil scene => exact .nil scene
  | cons found check _ inductionHypothesis =>
      exact .cons linked found check
        (inductionHypothesis (Scene.linked_transferred linked found check))

/-- The first moves of a run are a run. -/
theorem take (run : Run scene moves olds final) (count : Nat) :
    ∃ part middle, Run scene (moves.take count) part middle := by
  induction run generalizing count with
  | nil scene =>
      rw [List.take_nil]
      exact ⟨[], scene, .nil scene⟩
  | cons found check _ inductionHypothesis =>
      cases count with
      | zero => exact ⟨[], _, .nil _⟩
      | succ count =>
          obtain ⟨part, middle, first⟩ := inductionHypothesis count
          exact ⟨_, middle, .cons found check first⟩

/-- Every owner is in the slot it came from if and only if no part of the run
leads anywhere else. -/
theorem slots_iff (linked : scene.Linked ∅) (run : Run scene moves olds final) :
    (∀ item ∈ olds, final.slotOf item.1 = some item.2) ↔
      ∀ count part middle, Run scene (moves.take count) part middle →
        middle = scene := by
  induction run with
  | nil scene =>
      simp only [List.not_mem_nil, false_implies, implies_true,
        List.take_nil, true_iff]
      rintro _ _ middle ⟨⟩
      rfl
  | @cons scene final id old slot moves olds found check rest
      inductionHypothesis =>
        have onward :=
          inductionHypothesis (Scene.linked_transferred linked found check)
        have still := Scene.transferred_eq_self_iff linked found check
        rw [List.forall_mem_cons]
        constructor
        · rintro ⟨first, others⟩
          have stays := onward.1 others
          have atEnd : final = scene.transferred id old slot :=
            stays moves.length olds final (by rwa [List.take_length])
          rw [atEnd, ← still] at first
          rintro (_ | count) part middle begun
          · cases begun
            rfl
          · cases begun with
            | cons foundAgain _ begun =>
                rw [found] at foundAgain
                cases foundAgain
                exact (stays count _ middle begun).trans first
        · intro stays
          have first : scene.transferred id old slot = scene :=
            stays 1 _ _ (.cons found check (.nil _))
          have others := onward.2 fun count part middle begun =>
            (stays (count + 1) _ middle (.cons found check begun)).trans
              first.symm
          have atEnd : final = scene :=
            stays (moves.length + 1) _ final
              (.cons found check (by simpa only [List.take_length] using rest))
          exact ⟨atEnd ▸ found, others⟩

/-- What a command does that makes a run. -/
theorem apply_eq
    (command : Reparent)
    (run : Run document.scene command.moves olds final) :
    (command.apply document).state = { document with scene := final } ∧
      (command.apply document).result =
        .ok (if ∀ item ∈ olds, final.slotOf item.1 = some item.2 then .noop
          else .changed) := by
  have isDone :
      moveAll document.scene [] command.moves = (final, .ok olds.reverse) :=
    moveAll_eq_ok_iff.2 ⟨olds, run, (List.append_nil _).symm⟩
  rw [apply, isDone]
  simp only [List.all_reverse, List.all_eq_true, decide_eq_true_eq]
  split <;> exact ⟨rfl, rfl⟩

end Run

/-- A command that succeeds makes a run. -/
theorem run_of_result
    {outcome : Outcome}
    (succeeds : (command.apply document).result = .ok outcome) :
    ∃ olds final, Run document.scene command.moves olds final := by
  rw [apply] at succeeds
  split at succeeds
  · cases succeeds
  · next final all isDone =>
    obtain ⟨olds, run, _⟩ := moveAll_eq_ok_iff.1 isDone
    exact ⟨olds, final, run⟩

/-- Moves that succeed change the links of the moved owners alone: every list
keeps its other members in order, and each moved owner stands once, in the list
that its last move names. -/
theorem moves_only_links
    {outcome : Outcome}
    (wellFormed : document.scene.WellFormed)
    (succeeds : (command.apply document).result = .ok outcome) :
    ∃ scene, (command.apply document).state = { document with scene } ∧
      document.scene.Rearranges command.moves scene := by
  obtain ⟨olds, final, run⟩ := run_of_result succeeds
  exact ⟨final, (run.apply_eq command).1,
    run.rearranges (Scene.wellFormed_iff.1 wellFormed).1⟩

/-- The group goes behind the ellipse, the path and the tag of the group go to
the ellipse, and the path goes back. -/
def regrouping : Reparent where
  moves :=
    [(⟨3⟩, .child ⟨1⟩ 1), (⟨7⟩, .child ⟨6⟩ 0), (⟨8⟩, .tag ⟨6⟩ 5),
      (⟨7⟩, .child ⟨3⟩ 0)]

theorem result_regrouping :
    (regrouping.apply (Document.unchecked Document.nested {})).result =
      .ok .changed := by
  decide +kernel

theorem moves_only_links_regrouping :
    let document := Document.unchecked Document.nested {}
    document.scene.WellFormed ∧
      (regrouping.apply document).result = .ok .changed ∧
      ∃ scene, (regrouping.apply document).state = { document with scene } ∧
        document.scene.Rearranges regrouping.moves scene :=
  have wellFormed := Document.wellFormed_nested.scene
  ⟨wellFormed, result_regrouping, moves_only_links wellFormed result_regrouping⟩

/-- Every owner is in the slot it came from if and only if no part of the moves
changes the document. -/
theorem Run.slots_iff_parts
    (linked : document.scene.Linked ∅)
    (run : Run document.scene command.moves olds final) :
    (∀ item ∈ olds, final.slotOf item.1 = some item.2) ↔
      ∀ count, (apply { moves := command.moves.take count } document).state =
        document := by
  rw [run.slots_iff linked]
  constructor
  · intro stays count
    obtain ⟨part, middle, begun⟩ := run.take count
    rw [(begun.apply_eq { moves := _ }).1, stays count part middle begun]
  · intro stays count part middle begun
    have reached := (begun.apply_eq { moves := command.moves.take count }).1
    rw [stays count] at reached
    exact (congrArg Document.scene reached).symm

/-- Moves that succeed are recorded if and only if a part of them changes the
document.  Moves that are not recorded leave it as it was, and a single move is
recorded if and only if it changes it. -/
theorem changed_iff_part_moves
    {outcome : Outcome}
    (wellFormed : document.scene.WellFormed)
    (succeeds : (command.apply document).result = .ok outcome) :
    (outcome = .changed ↔ ∃ count,
      (apply { moves := command.moves.take count } document).state ≠ document) ∧
      (outcome = .noop → (command.apply document).state = document) ∧
      (command.moves.length ≤ 1 →
        (outcome = .changed ↔ (command.apply document).state ≠ document)) := by
  obtain ⟨olds, final, run⟩ := run_of_result succeeds
  have parts := run.slots_iff_parts (Scene.wellFormed_iff.1 wellFormed).1
  obtain ⟨reached, recorded⟩ := run.apply_eq command
  have covered : ∀ count, command.moves.length ≤ count →
      (apply { moves := command.moves.take count } document).state =
        (command.apply document).state := by
    intro count covers
    have whole : Run document.scene (command.moves.take count) olds final := by
      rwa [List.take_of_length_le covers]
    rw [(whole.apply_eq { moves := command.moves.take count }).1, reached]
  have recorded_iff : outcome = .changed ↔ ∃ count,
      (apply { moves := command.moves.take count } document).state ≠
        document := by
    rw [← not_forall, ← parts]
    rw [succeeds, Except.ok.injEq] at recorded
    rw [recorded]
    split
    · next back => exact iff_of_false nofun (not_not_intro back)
    · next moved => exact iff_of_true rfl moved
  refine ⟨recorded_iff, fun isNoop => ?_, fun short => ?_⟩
  · by_contra differs
    have isChanged :=
      recorded_iff.2 ⟨command.moves.length, covered _ le_rfl ▸ differs⟩
    rw [isNoop] at isChanged
    cases isChanged
  · rw [recorded_iff]
    constructor
    · rintro ⟨_ | count, differs⟩
      · exact absurd rfl differs
      · exact covered (count + 1) (by omega) ▸ differs
    · exact fun differs => ⟨command.moves.length, covered _ le_rfl ▸ differs⟩

theorem changed_iff_part_moves_regrouping :
    let document := Document.unchecked Document.nested {}
    document.scene.WellFormed ∧
      (regrouping.apply document).result = .ok .changed ∧
      ∃ count,
        (apply { moves := regrouping.moves.take count } document).state ≠
          document :=
  have wellFormed := Document.wellFormed_nested.scene
  ⟨wellFormed, result_regrouping,
    (changed_iff_part_moves wellFormed result_regrouping).1.1 rfl⟩

/-- Two children of the root change places twice: the moves are recorded, and
the document is the same. -/
theorem changed_unmoved_nested :
    let document := Document.unchecked Document.nested {}
    let command : Reparent :=
      { moves := [(⟨3⟩, .child ⟨1⟩ 1), (⟨6⟩, .child ⟨1⟩ 1)] }
    document.WellFormed ∧ (command.apply document).result = .ok .changed ∧
      (command.apply document).state = document :=
  ⟨Document.wellFormed_nested, by decide +kernel, by decide +kernel⟩

end Reparent
end MotionScene
