import Mathlib.Order.WellFounded
import Mathlib.Tactic.FinCases
import MotionScene.Proofs.Curve.Positions

/-!
# Cutting segments of a path

A path whose segments are cut in the middle keeps its knots where they stand,
gets one knot in each segment that is cut, and keeps the other segments as they
are.  This holds for coordinates of any kind, whatever their arithmetic comes
to.
-/

namespace MotionScene

/-- An item of one of several lists stands in their concatenation after all
lists before. -/
theorem getElem?_flatten_of_piece
    {α : Type}
    {pieces : List (List α)}
    {i j : Nat}
    {piece : List α}
    (isPiece : pieces[i]? = some piece)
    {item : α}
    (isItem : piece[j]? = some item) :
    pieces.flatten[(pieces.take i).flatten.length + j]? = some item := by
  obtain ⟨inside, rfl⟩ := List.getElem?_eq_some_iff.1 isPiece
  have split : pieces.flatten =
      (pieces.take i).flatten ++
        (pieces[i] ++ (pieces.drop (i + 1)).flatten) := by
    rw [← List.flatten_cons, ← List.drop_eq_getElem_cons
      inside, ← List.flatten_append, List.take_append_drop]
  have within := (List.getElem?_eq_some_iff.1 isItem).1
  rw [split, List.getElem?_append_right (Nat.le_add_right _ _),
    Nat.add_sub_cancel_left, List.getElem?_append_left within, isItem]

namespace Knot

variable {R : Type} [BEq R] (knot : Knot R) (tangent : Point R)

@[simp] theorem position_reshapeLeft :
    (knot.reshapeLeft tangent).position = knot.position := by
  rw [reshapeLeft]
  split <;> rfl

@[simp] theorem position_reshapeRight :
    (knot.reshapeRight tangent).position = knot.position := by
  rw [reshapeRight]
  split <;> rfl

@[simp] theorem rightTangent_reshapeLeft :
    (knot.reshapeLeft tangent).rightTangent = knot.rightTangent := by
  rw [reshapeLeft]
  split <;> rfl

@[simp] theorem leftTangent_reshapeRight :
    (knot.reshapeRight tangent).leftTangent = knot.leftTangent := by
  rw [reshapeRight]
  split <;> rfl

end Knot

namespace Path

variable {R : Type} [Add R] [Sub R] [Mul R] [BEq R] [OfScientific R]
variable {path : Path R} {cuts : IndexSet} {i : Nat}

/-! ## The knots at the ends of a cut segment -/

section Reshaped

variable (segment : Segment R) (knot : Knot R)

@[simp] theorem position_reshapedStart :
    (reshapedStart segment knot).position = knot.position := by
  rw [reshapedStart]
  split
  · rfl
  · exact knot.position_reshapeRight _

@[simp] theorem position_reshapedEnd :
    (reshapedEnd segment knot).position = knot.position := by
  rw [reshapedEnd]
  split
  · rfl
  · exact knot.position_reshapeLeft _

@[simp] theorem leftTangent_reshapedStart :
    (reshapedStart segment knot).leftTangent = knot.leftTangent := by
  rw [reshapedStart]
  split
  · rfl
  · exact knot.leftTangent_reshapeRight _

@[simp] theorem rightTangent_reshapedEnd :
    (reshapedEnd segment knot).rightTangent = knot.rightTangent := by
  rw [reshapedEnd]
  split
  · rfl
  · exact knot.rightTangent_reshapeLeft _

theorem rightTangent_reshapedStart_congr
    {knot other : Knot R}
    (same : knot.rightTangent = other.rightTangent) :
    (reshapedStart segment knot).rightTangent =
      (reshapedStart segment other).rightTangent := by
  simp only [reshapedStart, Knot.reshapeRight, same]
  split
  · exact same
  · split
    · exact same
    · rfl

end Reshaped

/-- Cutting the segments on its two sides leaves a knot where it stands. -/
@[simp] theorem position_reshaped
    (path : Path R)
    (cuts : IndexSet)
    (i : Nat)
    (knot : Knot R) :
    (path.reshaped cuts i knot).position = knot.position := by
  rw [reshaped]
  cases path.cut? cuts (path.before i) <;> cases path.cut? cuts i <;> simp

/-- The right tangent of a knot depends on the segment after it only. -/
theorem rightTangent_reshaped
    (path : Path R)
    (cuts : IndexSet)
    (i : Nat)
    (knot : Knot R) :
    (path.reshaped cuts i knot).rightTangent =
      ((path.cut? cuts i).map fun s => (reshapedStart s knot).rightTangent).getD
        knot.rightTangent := by
  rw [reshaped]
  cases path.cut? cuts (path.before i) with
  | none => cases path.cut? cuts i <;> rfl
  | some previous =>
      cases path.cut? cuts i with
      | none => exact rightTangent_reshapedEnd previous knot
      | some segment =>
          exact rightTangent_reshapedStart_congr segment
            (rightTangent_reshapedEnd previous knot)

/-- The left tangent of a knot depends on the segment before it only. -/
theorem leftTangent_reshaped
    (path : Path R)
    (cuts : IndexSet)
    (i : Nat)
    (knot : Knot R) :
    (path.reshaped cuts i knot).leftTangent =
      ((path.cut? cuts (path.before i)).map fun s =>
        (reshapedEnd s knot).leftTangent).getD
        knot.leftTangent := by
  rw [reshaped]
  cases path.cut? cuts i <;> cases path.cut? cuts (path.before i) <;> simp

omit [Sub R] [Mul R] [BEq R] [OfScientific R] in
theorem cut?_of_notMem (notCut : i ∉ cuts) : path.cut? cuts i = none :=
  if_neg notCut

omit [Sub R] [Mul R] [BEq R] [OfScientific R] in
theorem cut?_of_mem (isCut : i ∈ cuts) : path.cut? cuts i = path.segment? i :=
  if_pos isCut

/-! ## The knots in order -/

/-- Each knot of a path with the one put after it, if there is one. -/
def pieces (path : Path R) (cuts : IndexSet) : List (List (Knot R)) :=
  path.knots.mapIdx fun i knot =>
    path.reshaped cuts i knot :: ((path.cut? cuts i).map middleKnot).toList

/-- The path with the knots of its pieces. -/
def rejoined (path : Path R) (cuts : IndexSet) : Path R :=
  { path with knots := (path.pieces cuts).flatten }

/-- All segments to be cut are segments of the path. -/
def Has (path : Path R) (cuts : IndexSet) : Prop :=
  ∀ s ∈ cuts, s < path.segmentCount

theorem subdivided_eq_rejoined (has : path.Has cuts) :
    path.subdivided cuts = .ok (path.rejoined cuts) := by
  have accepted : path.checkBelow path.segmentCount cuts.toList = .ok () :=
    checkBelow_eq_ok_iff.2 fun s member =>
      has s (Std.ExtTreeSet.mem_toList.1 member)
  rw [subdivided, accepted]
  rfl

namespace Has

omit [Add R] [Sub R] [Mul R] [BEq R] [OfScientific R] in
theorem lt_length (has : path.Has cuts) {s : Nat} (isCut : s ∈ cuts) :
    s < path.knots.length :=
  (lt_segmentCount_iff.1 (has s isCut)).2.1

omit [Sub R] [Mul R] [BEq R] [OfScientific R] in
/-- A segment is cut if and only if it is listed. -/
theorem isSome_cut? (has : path.Has cuts) (i : Nat) :
    (path.cut? cuts i).isSome = decide (i ∈ cuts) := by
  by_cases isCut : i ∈ cuts
  · obtain ⟨_, _, _, _, isSegment⟩ := exists_segment? (has i isCut)
    rw [cut?_of_mem isCut, isSegment]
    simpa using isCut
  · rw [cut?_of_notMem isCut]
    simpa using isCut

/-- The pieces before a position fill the places before the one it is shifted
to. -/
theorem length_flatten_take_pieces
    (has : path.Has cuts)
    (inside : i ≤ path.knots.length) :
    ((path.pieces cuts).take i).flatten.length = shifted cuts i := by
  induction i with
  | zero => simp
  | succ i inductionHypothesis =>
      have isKnot : i < (path.pieces cuts).length := by
        rw [pieces, List.length_mapIdx]
        exact inside
      have count :
          (path.pieces cuts)[i].length = if i ∈ cuts then 2 else 1 := by
        have decided := has.isSome_cut? i
        simp only [pieces, List.getElem_mapIdx, List.length_cons]
        cases isCut : path.cut? cuts i <;> simp_all
      rw [List.take_succ_eq_append_getElem isKnot, List.flatten_append,
        List.length_append, inductionHypothesis (Nat.le_of_succ_le inside),
        shifted_succ, List.flatten_singleton, count]

theorem length_rejoined (has : path.Has cuts) :
    (path.rejoined cuts).knots.length = shifted cuts path.knots.length := by
  have whole : (path.pieces cuts).length = path.knots.length :=
    List.length_mapIdx
  rw [← has.length_flatten_take_pieces (Nat.le_refl _), ← whole,
    List.take_length]
  rfl

/-- A knot of the path is found at its shifted position. -/
theorem getElem?_rejoined
    (has : path.Has cuts)
    {knot : Knot R}
    (isKnot : path.knots[i]? = some knot) :
    (path.rejoined cuts).knots[shifted cuts i]? =
      some (path.reshaped cuts i knot) := by
  have inside := (List.getElem?_eq_some_iff.1 isKnot).1
  have isPiece : (path.pieces cuts)[i]? =
      some
        (path.reshaped cuts i knot ::
          ((path.cut? cuts i).map middleKnot).toList) := by
    rw [pieces, List.getElem?_mapIdx, isKnot]
    rfl
  rw [← has.length_flatten_take_pieces inside.le]
  exact getElem?_flatten_of_piece (j := 0) isPiece rfl

/-- The knot of a cut segment follows the knot where the segment starts. -/
theorem getElem?_rejoined_succ
    (has : path.Has cuts)
    (isCut : i ∈ cuts)
    {segment : Segment R}
    (isSegment : path.segment? i = some segment) :
    (path.rejoined cuts).knots[shifted cuts i + 1]? =
      some (middleKnot segment) := by
  have inside := has.lt_length isCut
  have isPiece : (path.pieces cuts)[i]? =
      some [path.reshaped cuts i path.knots[i], middleKnot segment] := by
    rw [pieces, List.getElem?_mapIdx, List.getElem?_eq_getElem inside,
      cut?_of_mem isCut, isSegment]
    rfl
  rw [← has.length_flatten_take_pieces inside.le]
  exact getElem?_flatten_of_piece (j := 1) isPiece rfl

/-- The end of a segment of the path is found where the next piece starts; after
the last piece that is at the start again. -/
theorem shifted_next (has : path.Has cuts) (inside : i < path.knots.length) :
    shifted cuts ((i + 1) % path.knots.length) =
      shifted cuts (i + 1) % (path.rejoined cuts).knots.length := by
  rw [has.length_rejoined]
  rcases Nat.lt_or_ge (i + 1) path.knots.length with isKnot | wraps
  · rw [Nat.mod_eq_of_lt isKnot,
      Nat.mod_eq_of_lt (strictMono_shifted cuts isKnot)]
  · have last : i + 1 = path.knots.length := by omega
    rw [last, Nat.mod_self, Nat.mod_self, shifted_zero]

/-- A segment starts at every place up to where the next piece starts. -/
theorem lt_segmentCount_rejoined
    (has : path.Has cuts)
    (inside : i < path.segmentCount)
    {j : Nat}
    (before : j < shifted cuts (i + 1)) :
    j < (path.rejoined cuts).segmentCount := by
  obtain ⟨several, isKnot, closes⟩ := lt_segmentCount_iff.1 inside
  have within : shifted cuts (i + 1) ≤ shifted cuts path.knots.length :=
    (strictMono_shifted cuts).monotone isKnot
  have enough := (strictMono_shifted cuts).le_apply (x := path.knots.length)
  rw [lt_segmentCount_iff, has.length_rejoined]
  refine ⟨by omega, by omega, closes.imp_right fun next => ?_⟩
  have strictly := strictMono_shifted cuts next
  omega

/-- A segment that is not cut is found at its shifted position. -/
theorem segment?_rejoined
    (has : path.Has cuts)
    (inside : i < path.segmentCount)
    (notCut : i ∉ cuts) :
    (path.rejoined cuts).segment? (shifted cuts i) = path.segment? i := by
  obtain ⟨a, b, isStart, isEnd, isSegment⟩ := exists_segment? inside
  obtain ⟨_, isKnot, _⟩ := lt_segmentCount_iff.1 inside
  have next : shifted cuts i + 1 = shifted cuts (i + 1) := by
    rw [shifted_succ, if_neg notCut]
  have isLast := has.getElem?_rejoined isEnd
  rw [has.shifted_next isKnot, ← next] at isLast
  rw [segment?_eq_join (has.lt_segmentCount_rejoined inside (by omega))
    (has.getElem?_rejoined isStart) isLast, isSegment]
  refine congrArg some
    (join_congr (position_reshaped ..) ?_ ?_ (position_reshaped ..))
  · rw [rightTangent_reshaped, cut?_of_notMem notCut]
    rfl
  · rw [leftTangent_reshaped, before_next isKnot, cut?_of_notMem notCut]
    rfl

/-- The first half of a cut segment ends at its middle knot. -/
theorem segment?_rejoined_of_cut
    (has : path.Has cuts)
    (isCut : i ∈ cuts)
    {a : Knot R}
    (isStart : path.knots[i]? = some a)
    {segment : Segment R}
    (isSegment : path.segment? i = some segment) :
    (path.rejoined cuts).segment? (shifted cuts i) =
      some (join (path.reshaped cuts i a) (middleKnot segment)) := by
  have isMiddle := has.getElem?_rejoined_succ isCut isSegment
  have inside := (List.getElem?_eq_some_iff.1 isMiddle).1
  refine segment?_eq_join (has.lt_segmentCount_rejoined (has i isCut) ?_)
    (has.getElem?_rejoined isStart) ?_
  · exact strictMono_shifted cuts (Nat.lt_succ_self i)
  · rw [Nat.mod_eq_of_lt inside, isMiddle]

/-- The second half of a cut segment starts at its middle knot. -/
theorem segment?_rejoined_succ_of_cut
    (has : path.Has cuts)
    (isCut : i ∈ cuts)
    {b : Knot R}
    (isEnd : path.knots[(i + 1) % path.knots.length]? = some b)
    {segment : Segment R}
    (isSegment : path.segment? i = some segment) :
    (path.rejoined cuts).segment? (shifted cuts i + 1) =
      some (join (middleKnot segment)
        (path.reshaped cuts ((i + 1) % path.knots.length) b)) := by
  have next : shifted cuts i + 1 + 1 = shifted cuts (i + 1) := by
    rw [shifted_succ, if_pos isCut]
  have isLast := has.getElem?_rejoined isEnd
  rw [has.shifted_next (has.lt_length isCut), ← next] at isLast
  exact segment?_eq_join (has.lt_segmentCount_rejoined (has i isCut) (by omega))
    (has.getElem?_rejoined_succ isCut isSegment) isLast

end Has

/-! ## What cutting leaves -/

/-- One path comes from another by putting knots into some of its segments. -/
structure Subdivides (path after : Path R) (cuts : IndexSet) : Prop where
  closed : after.closed = path.closed
  length : after.knots.length = path.knots.length + cuts.size
  /-- The knots there were keep their positions, and each cut before one shifts
  it by a place. -/
  kept : ∀ {i knot}, path.knots[i]? = some knot →
    ∃ moved, after.knots[shifted cuts i]? = some moved ∧
      moved.position = knot.position
  /-- The knot in the middle of a segment follows the one where the segment
  starts, and what came next follows it. -/
  added : ∀ {s}, s ∈ cuts → ∃ segment, path.segment? s = some segment ∧
    after.knots[shifted cuts s + 1]? = some (middleKnot segment) ∧
    (if s + 1 = path.knots.length then
      after.knots.length else shifted cuts (s + 1)) =
      shifted cuts s + 2
  /-- There are no other knots. -/
  all : ∀ {j}, j < after.knots.length →
    ∃ i < path.knots.length,
      j = shifted cuts i ∨ (i ∈ cuts ∧ j = shifted cuts i + 1)
  /-- A segment that is not cut runs as before. -/
  segments : ∀ {i}, i < path.segmentCount → i ∉ cuts →
    ∃ segment, path.segment? i = some segment ∧
      after.segment? (shifted cuts i) = some segment

/-- Segments that a path has can be cut, and nothing else changes. -/
theorem subdivides_of_has
    (path : Path R)
    (cuts : IndexSet)
    (existing : ∀ s ∈ cuts, s < path.segmentCount) :
    ∃ after, path.subdivided cuts = .ok after ∧ path.Subdivides after cuts := by
  have has : path.Has cuts := existing
  refine ⟨path.rejoined cuts, subdivided_eq_rejoined has, rfl, ?_,
    ?_, ?_, ?_, ?_⟩
  · rw [has.length_rejoined,
      shifted_of_forall_lt fun s isCut => has.lt_length isCut]
  · intro i knot isKnot
    exact ⟨_, has.getElem?_rejoined isKnot, position_reshaped ..⟩
  · intro s isCut
    obtain ⟨a, b, _, _, isSegment⟩ := exists_segment? (has s isCut)
    refine ⟨_, isSegment, has.getElem?_rejoined_succ isCut isSegment, ?_⟩
    have next : shifted cuts (s + 1) = shifted cuts s + 2 := by
      rw [shifted_succ, if_pos isCut]
    split
    · next last => rw [has.length_rejoined, ← last, next]
    · exact next
  · intro j inside
    rw [has.length_rejoined] at inside
    exact exists_eq_shifted inside
  · intro i inside notCut
    obtain ⟨a, b, _, _, isSegment⟩ := exists_segment? inside
    exact ⟨_, isSegment, (has.segment?_rejoined inside notCut).trans isSegment⟩

/-- A closed path through three knots, one of them smooth. -/
def triangle : Path Float :=
  ⟨[.smooth ⟨0.0, 0.0⟩ ⟨0.0, 4.0⟩, .linear ⟨8.0, 0.0⟩,
    .linear ⟨4.0, 6.0⟩], true⟩

/-- Its first segment and the one that closes it. -/
def aroundFirst : IndexSet :=
  ((∅ : IndexSet).insert 0).insert 2

theorem has_aroundFirst : ∀ s ∈ aroundFirst, s < triangle.segmentCount := by
  intro s isCut
  have listed : s ∈ aroundFirst.toList := Std.ExtTreeSet.mem_toList.2 isCut
  have isList : aroundFirst.toList = [0, 2] := rfl
  rw [isList] at listed
  fin_cases listed <;> decide

theorem subdivides_triangle :
    ∃ after, triangle.subdivided aroundFirst = .ok after ∧
      after.knots.length = 5 ∧
      after.segment? 2 = triangle.segment? 1 ∧
      triangle.Subdivides after aroundFirst := by
  obtain ⟨after, done, subdivides⟩ :=
    subdivides_of_has triangle aroundFirst has_aroundFirst
  obtain ⟨segment, isSegment, found⟩ :=
    subdivides.segments (i := 1) (by decide) (by decide)
  exact ⟨after, done, subdivides.length, found.trans isSegment.symm, subdivides⟩

end Path
end MotionScene
