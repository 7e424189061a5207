import Mathlib.Data.Nat.SuccPred
import MotionScene.Proofs.Attempt
import MotionScene.Scene.Validation

/-!
# Keyframes in order

On keyframes that ascend without repetition the halving search finds the
keyframe at a frame, or the place where it belongs.  Setting and removing
keyframes keeps the order, and each takes the other back; sorting puts any
keyframes in order.
-/

namespace MotionScene
namespace Track

variable {track : Track} {keyframe old : Keyframe}
  {keyframes before after : List Keyframe} {frame : Int32}

/-- Keyframes whose frames ascend without repetition. -/
def Ascends (keyframes : List Keyframe) : Prop :=
  keyframes.Pairwise fun a b => a.frame < b.frame

theorem ascending_iff :
    Scene.ascending (keyframes.map Keyframe.frame) = true ↔
      Ascends keyframes := by
  unfold Ascends
  induction keyframes with
  | nil => simp [Scene.ascending]
  | cons first rest inductionHypothesis =>
      cases rest with
      | nil => simp [Scene.ascending]
      | cons second rest =>
          rw [List.map_cons, List.map_cons, Scene.ascending, Bool.and_eq_true,
            decide_eq_true_eq, ← List.map_cons, inductionHypothesis,
            List.pairwise_cons (a := first)]
          refine and_congr_left fun ascends => ?_
          constructor
          · intro step other member
            rcases List.mem_cons.1 member with rfl | later
            · exact step
            · exact Int32.lt_trans step
                ((List.pairwise_cons.1 ascends).1 other later)
          · intro all
            exact all second List.mem_cons_self

theorem Ascends.nodup (ascends : Ascends keyframes) :
    (keyframes.map Keyframe.frame).Nodup := by
  rw [List.nodup_iff_pairwise_ne, List.pairwise_map]
  exact ascends.imp Int32.ne_of_lt

/-- Around a keyframe the others are earlier and later. -/
theorem Ascends.around
    (ascends : Ascends (before ++ old :: after)) :
    (∀ other ∈ before, other.frame < old.frame) ∧ ∀ other ∈ after,
      old.frame < other.frame := by
  obtain ⟨_, second, across⟩ := List.pairwise_append.1 ascends
  exact ⟨fun other member => across other member old List.mem_cons_self,
    (List.pairwise_cons.1 second).1⟩

/-! ## Searching -/

/-- Wherever the positions past what is sought are, the halving search ends at a
position that is not one of them, unless it never left its start, and just
before one of them, unless it reached its end. -/
theorem halve_bracket
    (past : Nat → Bool)
    {fuel start size : Nat}
    (enough : size ≤ fuel)
    (positive : 0 < size) :
    start ≤ halve past fuel start size ∧
      halve past fuel start size < start + size ∧
      (halve past fuel start size = start ∨
        past (halve past fuel start size) = false) ∧
      (halve past fuel start size + 1 = start + size ∨
        past (halve past fuel start size + 1) = true) := by
  induction fuel generalizing start size with
  | zero => omega
  | succ fuel inductionHypothesis =>
      unfold halve
      split
      · exact ⟨Nat.le_refl _, by omega, Or.inl rfl, Or.inl (by omega)⟩
      · have shorter : size - size / 2 ≤ fuel := by omega
        have nonempty : 0 < size - size / 2 := by omega
        cases passed : past (start + size / 2) with
        | true =>
            obtain ⟨low, high, edge, next⟩ :=
              @inductionHypothesis start _ shorter nonempty
            simp only [passed, if_true]
            refine ⟨low, by omega, edge, Or.inr ?_⟩
            rcases next with isEnd | later
            · rcases Nat.lt_or_ge (size / 2) (size - size / 2) with odd | even
              · -- The last position left would be the one that was passed.
                have isHalf : halve past fuel start (size - size / 2) =
                    start + size / 2 := by omega
                rw [isHalf, passed] at edge
                exact edge.elim (by omega) Bool.noConfusion
              · have isHalf : halve past fuel start (size - size / 2) + 1 =
                    start + size / 2 := by omega
                rwa [isHalf]
            · exact later
        | false =>
            obtain ⟨low, high, edge, next⟩ :=
              @inductionHypothesis (start + size / 2) _ shorter nonempty
            simp only [passed, Bool.false_eq_true, if_false]
            refine ⟨by omega, by omega, Or.inr ?_, next.imp_left (by omega)⟩
            rcases edge with same | notPast
            · rwa [same]
            · exact notPast

/-- The halving search ends at the last position that is not past what is
sought, if the positions past it come last. -/
theorem halve_spec
    {past : Nat → Bool}
    {limit : Nat}
    (onward : ∀ i j, i ≤ j → j < limit → past i = true → past j = true)
    {fuel start size : Nat}
    (enough : size ≤ fuel)
    (positive : 0 < size)
    (within : start + size ≤ limit) :
    halve past fuel start size < start + size ∧
      (halve past fuel start size = start ∨
        past (halve past fuel start size) = false) ∧
      ∀ j, halve past fuel start size < j → j < start + size →
        past j = true := by
  obtain ⟨_, bound, edge, next⟩ := halve_bracket past enough positive
  refine ⟨bound, edge, fun j after inside => ?_⟩
  rcases next with isEnd | passed
  · omega
  · exact onward _ j after (by omega) passed

theorem frame_lt_of_lt
    (ascends : Ascends keyframes)
    {i j : Nat}
    {a b : Keyframe}
    (order : i < j)
    (first : keyframes[i]? = some a)
    (second : keyframes[j]? = some b) :
    a.frame < b.frame := by
  obtain ⟨boundI, rfl⟩ := List.getElem?_eq_some_iff.1 first
  obtain ⟨boundJ, rfl⟩ := List.getElem?_eq_some_iff.1 second
  exact List.pairwise_iff_getElem.1 ascends i j boundI boundJ order

/-- The search lands at a keyframe that is not later than the frame, unless all
are, and everything after it is later. -/
theorem landing_spec
    (ascends : Ascends keyframes)
    (nonempty : keyframes ≠ [])
    (frame : Int32) :
    ∃ found, keyframes[landing keyframes frame]? = some found ∧
      (landing keyframes frame = 0 ∨ found.frame ≤ frame) ∧
      ∀ j later, landing keyframes frame < j → keyframes[j]? = some later →
        frame < later.frame := by
  have onward : ∀ i j, i ≤ j → j < keyframes.length →
      isPast keyframes frame i = true → isPast keyframes frame j = true := by
    intro i j order inside passed
    rcases Nat.lt_or_eq_of_le order with less | rfl
    · simp only [isPast, List.getElem?_eq_getElem inside,
        List.getElem?_eq_getElem (Nat.lt_trans less inside),
        decide_eq_true_eq] at passed ⊢
      exact Int32.lt_trans passed
        (List.pairwise_iff_getElem.1 ascends i j _ inside less)
    · exact passed
  obtain ⟨bound, edge, later⟩ := halve_spec onward (Nat.le_refl _)
    (List.length_pos_iff.2 nonempty) (Nat.le_of_eq (Nat.zero_add _))
  rw [Nat.zero_add] at bound later
  change landing keyframes frame < _ at bound
  refine ⟨_, List.getElem?_eq_getElem bound, edge.imp_right ?_, ?_⟩
  · intro notPast
    change isPast keyframes frame (landing keyframes frame) = false at notPast
    simp only [isPast, List.getElem?_eq_getElem bound, decide_eq_false_iff_not]
      at notPast
    exact Int32.not_lt.1 notPast
  · intro j other order found
    obtain ⟨inside, rfl⟩ := List.getElem?_eq_some_iff.1 found
    have passed := later j order inside
    simpa only [isPast, List.getElem?_eq_getElem inside, decide_eq_true_eq]
      using passed

/-- The position of a frame is that of the keyframe at it. -/
theorem position?_hit
    (ascends : Ascends track.keyframes)
    (shape : track.keyframes = before ++ old :: after) :
    track.position? old.frame = some before.length := by
  rw [shape] at ascends
  have here : (before ++ old :: after)[before.length]? = some old := by simp
  obtain ⟨found, isFound, edge, later⟩ :=
    landing_spec ascends (by simp) old.frame
  have same : landing (before ++ old :: after) old.frame = before.length := by
    rcases Nat.lt_trichotomy
      (landing (before ++ old :: after) old.frame) before.length with
      less | equal | greater
    · exact absurd (later _ old less here) Int32.lt_irrefl
    · exact equal
    · have order := frame_lt_of_lt ascends greater here isFound
      rcases edge with first | low
      · omega
      · exact absurd order (Int32.not_lt.2 low)
  simp only [position?, shape, same, here, if_true]

/-- A frame between two keyframes has no position, and as many keyframes before
it as there are earlier ones. -/
theorem position?_miss
    (ascends : Ascends track.keyframes)
    (shape : track.keyframes = before ++ after)
    (earlier : ∀ keyframe ∈ before, keyframe.frame < frame)
    (later : ∀ keyframe ∈ after, frame < keyframe.frame) :
    track.position? frame = none ∧
      countUpTo track.keyframes frame = before.length := by
  rw [shape] at ascends ⊢
  by_cases empty : before ++ after = []
  · obtain ⟨rfl, rfl⟩ := List.append_eq_nil_iff.1 empty
    simp [position?, shape, countUpTo, landing, halve]
  · obtain ⟨found, isFound, edge, beyond⟩ := landing_spec ascends empty frame
    have member : found ∈ before ++ after := List.mem_of_getElem? isFound
    have differs : found.frame ≠ frame := by
      rintro rfl
      rcases List.mem_append.1 member with isEarlier | isLater
      · exact Int32.lt_irrefl (earlier found isEarlier)
      · exact Int32.lt_irrefl (later found isLater)
    refine ⟨by simp only [position?, shape, isFound, if_neg differs], ?_⟩
    simp only [countUpTo, isFound]
    rcases Nat.lt_or_ge (landing (before ++ after) frame) before.length with
      inBefore | inAfter
    · -- The next keyframe is later, so the earlier ones end here.
      have isEarlier : found ∈ before := by
        rw [List.getElem?_append_left inBefore] at isFound
        exact List.mem_of_getElem? isFound
      rw [if_pos (Int32.le_of_lt (earlier found isEarlier))]
      by_contra more
      have inside :
          landing (before ++ after) frame + 1 < before.length := by omega
      have next := beyond _ before[landing (before ++ after) frame + 1]
        (Nat.lt_succ_self _) (by
        rw [List.getElem?_append_left inside, List.getElem?_eq_getElem inside])
      exact Int32.lt_irrefl
        (Int32.lt_trans next (earlier _ (List.getElem_mem inside)))
    · have isLater : found ∈ after := by
        rw [List.getElem?_append_right inAfter] at isFound
        exact List.mem_of_getElem? isFound
      have past := later found isLater
      rw [if_neg (Int32.not_le.2 past)]
      rcases edge with first | low
      · omega
      · exact absurd past (Int32.not_lt.2 low)

/-- Either there is a keyframe at a frame, or the keyframes split into earlier
and later ones. -/
theorem split_at
    (ascends : Ascends keyframes)
    (frame : Int32) :
    (∃ before old after,
      keyframes = before ++ old :: after ∧ old.frame = frame) ∨
      ∃ before after, keyframes = before ++ after ∧
        (∀ keyframe ∈ before, keyframe.frame < frame) ∧
        ∀ keyframe ∈ after, frame < keyframe.frame := by
  induction keyframes with
  | nil => exact Or.inr ⟨[], [], rfl, by simp, by simp⟩
  | cons first rest inductionHypothesis =>
      obtain ⟨above, ascendsRest⟩ := List.pairwise_cons.1 ascends
      rcases lt_trichotomy first.frame.toInt frame.toInt with
        less | same | greater
      · rcases inductionHypothesis ascendsRest with
          ⟨before, old, after, rfl, isOld⟩ |
            ⟨before, after, rfl, earlier, later⟩
        · exact Or.inl ⟨first :: before, old, after, rfl, isOld⟩
        · refine Or.inr ⟨first :: before, after, rfl, ?_, later⟩
          intro keyframe member
          rcases List.mem_cons.1 member with rfl | member
          · exact Int32.lt_iff_toInt_lt.2 less
          · exact earlier keyframe member
      · exact Or.inl ⟨[], first, rest, rfl, Int32.toInt_inj.1 same⟩
      · refine Or.inr ⟨[], first :: rest, rfl, by simp, ?_⟩
        intro keyframe member
        have greater := Int32.lt_iff_toInt_lt.2 greater
        rcases List.mem_cons.1 member with rfl | member
        · exact greater
        · exact Int32.lt_trans greater (above keyframe member)

/-- The search for a keyframe finds the one at the frame. -/
theorem keyframe?_eq_find? (ascends : Ascends track.keyframes) :
    track.keyframe? frame = track.keyframes.find? fun keyframe =>
      keyframe.frame = frame := by
  rcases split_at ascends frame with
    ⟨before, old, after, shape, rfl⟩ | ⟨before, after, shape, earlier, later⟩
  · have unmatched : ∀ keyframe ∈ before,
        ¬ decide (keyframe.frame = old.frame) = true := by
      intro keyframe member
      rw [shape] at ascends
      exact fun same => Int32.ne_of_lt (ascends.around.1 keyframe member)
        (of_decide_eq_true same)
    rw [keyframe?, position?_hit ascends shape, shape, List.find?_append,
      List.find?_eq_none.2 unmatched]
    simp
  · rw [keyframe?, (position?_miss ascends shape earlier later).1, eq_comm,
      List.find?_eq_none.2]
    · rfl
    · intro keyframe member
      rw [shape, List.mem_append] at member
      rcases member with isEarlier | isLater
      · simpa using Int32.ne_of_lt (earlier keyframe isEarlier)
      · simpa using (Int32.ne_of_lt (later keyframe isLater)).symm

/-- The search for a keyframe finds the frames that are keyed. -/
theorem keyframe?_isSome_iff (ascends : Ascends track.keyframes) :
    (track.keyframe? frame).isSome = true ↔ frame ∈ track.frames := by
  simp [keyframe?_eq_find? ascends, frames]

/-! ## Setting and removing -/

/-- A keyframe fits a track by its kind and the number of components of its
slopes. -/
theorem check_eq_ok_iff :
    track.check keyframe = .ok () ↔
      keyframe.value.kind = track.kind ∧ ∀ tangents,
        keyframe.tangents = some tangents →
        tangents.incoming.length = track.kind.componentCount ∧
          tangents.outgoing.length = track.kind.componentCount := by
  unfold check
  split
  · next differs => simp [differs]
  · next fits =>
    cases keyframe.tangents with
    | none => simpa using fits
    | some tangents =>
        simp only [ne_eq, Decidable.not_not] at fits
        simp only [fits, true_and, Option.some.injEq, forall_eq']
        split
        · next differs => simpa using not_and_or.2 differs
        · next lengths => simpa [not_or] using lengths

theorem Ascends.replace
    (ascends : Ascends (before ++ old :: after))
    (same : keyframe.frame = old.frame) :
    Ascends (before ++ keyframe :: after) := by
  unfold Ascends at *
  simp only [List.pairwise_append, List.pairwise_cons, List.mem_cons,
    forall_eq_or_imp, same] at ascends ⊢
  exact ascends

theorem Ascends.remove (ascends : Ascends (before ++ old :: after)) :
    Ascends (before ++ after) :=
  ascends.sublist
    ((List.append_sublist_append_left before).2
      (List.sublist_cons_self old after))

theorem Ascends.insert
    (ascends : Ascends (before ++ after))
    (earlier : ∀ other ∈ before, other.frame < keyframe.frame)
    (later : ∀ other ∈ after, keyframe.frame < other.frame) :
    Ascends (before ++ keyframe :: after) := by
  obtain ⟨first, second, across⟩ := List.pairwise_append.1 ascends
  refine List.pairwise_append.2
    ⟨first, List.pairwise_cons.2 ⟨later, second⟩, ?_⟩
  intro a memberA b memberB
  rcases List.mem_cons.1 memberB with rfl | memberB
  · exact earlier a memberA
  · exact across a memberA b memberB

/-- Setting a keyframe where there is one replaces it. -/
theorem upsert_hit
    (ascends : Ascends track.keyframes)
    (shape : track.keyframes = before ++ old :: after)
    (checked : track.check keyframe = .ok ())
    (same : keyframe.frame = old.frame) :
    track.upsert keyframe =
      .ok ({ track with keyframes := before ++ keyframe :: after },
        some old) := by
  rw [upsert, checked, same]
  simp only [Attempt.ok_bind, position?_hit ascends shape, shape]
  simp

/-- Setting a keyframe where there is none adds it. -/
theorem upsert_miss
    (ascends : Ascends track.keyframes)
    (shape : track.keyframes = before ++ after)
    (checked : track.check keyframe = .ok ())
    (earlier : ∀ other ∈ before, other.frame < keyframe.frame)
    (later : ∀ other ∈ after, keyframe.frame < other.frame) :
    track.upsert keyframe =
      .ok ({ track with keyframes := before ++ keyframe :: after }, none) := by
  obtain ⟨missing, count⟩ := position?_miss ascends shape earlier later
  have inserted : (before ++ after).insertIdx before.length keyframe =
      before ++ keyframe :: after := by
    clear missing count shape earlier
    induction before with
    | nil => rfl
    | cons first rest inductionHypothesis => simp [inductionHypothesis]
  rw [shape] at count
  rw [upsert, checked]
  simp only [Attempt.ok_bind, missing, shape, count, inserted,
    Attempt.pure_eq_ok]

/-- Removing the keyframe at a frame leaves the others. -/
theorem remove_hit
    (ascends : Ascends track.keyframes)
    (shape : track.keyframes = before ++ old :: after) :
    track.remove old.frame =
      ({ track with keyframes := before ++ after }, some old) := by
  rw [remove, position?_hit ascends shape]
  simp [shape, List.eraseIdx_append]

/-! ## Sorting -/

theorem insertSorted_perm (keyframe : Keyframe) (keyframes : List Keyframe) :
    (insertSorted keyframe keyframes).Perm (keyframe :: keyframes) := by
  induction keyframes with
  | nil => exact .refl _
  | cons other rest inductionHypothesis =>
      unfold insertSorted
      split
      · exact .refl _
      · exact (inductionHypothesis.cons other).trans (.swap keyframe other rest)

theorem sortKeyframes_perm (keyframes : List Keyframe) :
    (sortKeyframes keyframes).Perm keyframes := by
  induction keyframes with
  | nil => exact .refl _
  | cons first rest inductionHypothesis =>
      exact (insertSorted_perm first _).trans (inductionHypothesis.cons first)

theorem insertSorted_sorted
    (sorted : keyframes.Pairwise fun a b => a.frame ≤ b.frame) :
    (insertSorted keyframe keyframes).Pairwise fun a b => a.frame ≤
      b.frame := by
  induction keyframes with
  | nil => simp [insertSorted]
  | cons other rest inductionHypothesis =>
      obtain ⟨least, sortedRest⟩ := List.pairwise_cons.1 sorted
      unfold insertSorted
      split
      · next before =>
        refine List.pairwise_cons.2 ⟨?_, sorted⟩
        intro third member
        rcases List.mem_cons.1 member with rfl | member
        · exact before
        · exact Int32.le_trans before (least third member)
      · next behind =>
        refine List.pairwise_cons.2 ⟨?_, inductionHypothesis sortedRest⟩
        intro third member
        rcases List.mem_cons.1
          ((insertSorted_perm keyframe rest).mem_iff.1 member) with
          rfl | member
        · exact Int32.le_of_lt (Int32.not_le.1 behind)
        · exact least third member

theorem sortKeyframes_sorted (keyframes : List Keyframe) :
    (sortKeyframes keyframes).Pairwise fun a b => a.frame ≤ b.frame := by
  induction keyframes with
  | nil => exact List.Pairwise.nil
  | cons first rest inductionHypothesis =>
      exact insertSorted_sorted inductionHypothesis

/-- Sorting leaves keyframes that ascend as they are. -/
theorem sortKeyframes_of_ascends (ascends : Ascends keyframes) :
    sortKeyframes keyframes = keyframes := by
  induction keyframes with
  | nil => rfl
  | cons first rest inductionHypothesis =>
      obtain ⟨least, ascendsRest⟩ := List.pairwise_cons.1 ascends
      change insertSorted first (sortKeyframes rest) = _
      rw [inductionHypothesis ascendsRest]
      cases rest with
      | nil => rfl
      | cons second rest =>
          rw [insertSorted,
            if_pos (Int32.le_of_lt (least second List.mem_cons_self))]

theorem firstRepeat?_of_ascends (ascends : Ascends keyframes) :
    firstRepeat? keyframes = none := by
  induction keyframes with
  | nil => rfl
  | cons first rest inductionHypothesis =>
      obtain ⟨least, ascendsRest⟩ := List.pairwise_cons.1 ascends
      cases rest with
      | nil => rfl
      | cons second rest =>
          rw [firstRepeat?,
            if_neg (Int32.ne_of_lt (least second List.mem_cons_self))]
          exact inductionHypothesis ascendsRest

/-- Sorted keyframes ascend when no two neighbours share a frame. -/
theorem ascends_of_firstRepeat?
    (sorted : keyframes.Pairwise fun a b => a.frame ≤ b.frame)
    (distinct : firstRepeat? keyframes = none) :
    Ascends keyframes := by
  induction keyframes with
  | nil => exact List.Pairwise.nil
  | cons first rest inductionHypothesis =>
      obtain ⟨least, sortedRest⟩ := List.pairwise_cons.1 sorted
      cases rest with
      | nil => exact List.pairwise_singleton _ _
      | cons second rest =>
          rw [firstRepeat?] at distinct
          split at distinct
          · cases distinct
          · next differs =>
            have ascendsRest := inductionHypothesis sortedRest distinct
            have step : first.frame < second.frame :=
              Int32.lt_of_le_of_ne (least second List.mem_cons_self) differs
            refine List.pairwise_cons.2 ⟨?_, ascendsRest⟩
            intro third member
            rcases List.mem_cons.1 member with rfl | member
            · exact step
            · exact Int32.lt_trans step
                ((List.pairwise_cons.1 ascendsRest).1 third member)

/-- Sorted keyframes have no neighbours at one frame if and only if no two of
them are at one frame. -/
theorem firstRepeat?_sortKeyframes_eq_none_iff :
    firstRepeat? (sortKeyframes keyframes) = none ↔
      (keyframes.map Keyframe.frame).Nodup := by
  have perm := (sortKeyframes_perm keyframes).map Keyframe.frame
  constructor
  · intro distinct
    exact perm.nodup_iff.1
      (ascends_of_firstRepeat? (sortKeyframes_sorted keyframes) distinct).nodup
  · intro nodup
    refine firstRepeat?_of_ascends ?_
    have differ := perm.nodup_iff.2 nodup
    rw [List.nodup_iff_pairwise_ne, List.pairwise_map] at differ
    exact ((sortKeyframes_sorted keyframes).and differ).imp fun both =>
      Int32.lt_of_le_of_ne both.1 both.2

/-- Keyframes that ascend and fit the track replace its own. -/
theorem replaceAll_of_ascends
    (ascends : Ascends keyframes)
    (checked : ∀ keyframe ∈ keyframes, track.check keyframe = .ok ()) :
    track.replaceAll keyframes =
      .ok ({ track with keyframes }, track.keyframes) := by
  rw [replaceAll, Attempt.forM_eq_ok_iff.2 checked]
  simp only [Attempt.ok_bind, sortKeyframes_of_ascends ascends,
    firstRepeat?_of_ascends ascends]

end Track
end MotionScene
