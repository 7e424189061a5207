import Mathlib.Tactic.NormNum
import Mathlib.Tactic.Ring
import MotionScene.Proofs.Curve.Subdivision

/-!
# Cutting a segment keeps the curve

With exact arithmetic the two segments that take the place of one that is cut
run through the same points, each over half of the parameters.  The new segments
are made from the tangents of knots, of which each may change on both of its
sides at once.
-/

namespace MotionScene

/-! ## Points with exact coordinates -/

namespace Point

variable {R : Type}

theorem agrees_iff_eq [BEq R] [LawfulBEq R] {p q : Point R} :
    p.agrees q = true ↔ p = q := by
  obtain ⟨px, py⟩ := p
  obtain ⟨qx, qy⟩ := q
  simp [agrees]

theorem add_sub_self (p q : Point ℚ) : p + (q - p) = q := by
  obtain ⟨px, py⟩ := p
  obtain ⟨qx, qy⟩ := q
  exact congrArg₂ Point.mk (add_sub_cancel px qx) (add_sub_cancel py qy)

theorem add_zero (p : Point ℚ) : p + zero = p := by
  obtain ⟨x, y⟩ := p
  refine congrArg₂ Point.mk ?_ ?_ <;> norm_num [zero]

end Point

/-! ## Halves of a curve -/

namespace Segment

/-- The part of a curve before a parameter runs through the points up to
there. -/
theorem pointAt_split_fst (s : Segment ℚ) (h t : ℚ) :
    (s.split h).1.pointAt t = s.pointAt (h * t) := by
  refine congrArg₂ Point.mk ?_ ?_ <;>
    · simp only [split, Point.lerp, Point.blend, Point.scale_x, Point.scale_y]
      norm_num
      ring

/-- The part of a curve after a parameter runs through the points from there
on. -/
theorem pointAt_split_snd (s : Segment ℚ) (h t : ℚ) :
    (s.split h).2.pointAt t = s.pointAt (h + (1 - h) * t) := by
  refine congrArg₂ Point.mk ?_ ?_ <;>
    · simp only [split, Point.lerp, Point.blend, Point.scale_x, Point.scale_y]
      norm_num
      ring

/-- The middle of the straight line between the ends of a segment. -/
def center (s : Segment ℚ) : Point ℚ :=
  ⟨(s.first.x + s.last.x) / 2, (s.first.y + s.last.y) / 2⟩

theorem midpoint_eq_center (s : Segment ℚ) :
    s.first.midpoint s.last = s.center := by
  refine congrArg₂ Point.mk ?_ ?_ <;>
    · simp only [Point.blend]
      norm_num
      ring

/-- Two segments run where one did, each over half of its parameters; the halves
of a straight segment are straight. -/
structure Halves (whole first second : Segment ℚ) : Prop where
  curved : whole.isLinear = false → ∀ t : ℚ,
    first.pointAt t = whole.pointAt (t / 2) ∧
      second.pointAt t = whole.pointAt (1 / 2 + t / 2)
  straight : whole.isLinear = true →
    first = ⟨whole.first, whole.first, whole.center, whole.center⟩ ∧
      second = ⟨whole.center, whole.center, whole.last, whole.last⟩

theorem halves_split {s : Segment ℚ} (isCurved : s.isLinear = false) :
    s.Halves (s.split 0.5).1 (s.split 0.5).2 := by
  constructor
  · intro _ t
    rw [pointAt_split_fst, pointAt_split_snd]
    constructor <;> congr 1 <;> norm_num <;> ring
  · intro isStraight
    rw [isCurved] at isStraight
    cases isStraight

theorem mk_offsets (s : Segment ℚ) :
    (⟨s.first, s.first + (s.firstHandle - s.first),
      s.last + (s.lastHandle - s.last), s.last⟩ : Segment ℚ) = s := by
  rw [Point.add_sub_self, Point.add_sub_self]

/-- A segment is straight when its handles sit on its ends. -/
theorem isLinear_iff {s : Segment ℚ} :
    s.isLinear = true ↔ s.firstHandle = s.first ∧ s.lastHandle = s.last := by
  rw [isLinear, Bool.and_eq_true, Point.agrees_iff_eq, Point.agrees_iff_eq]

end Segment

/-! ## Halves of a segment between knots -/

namespace Knot

variable {R : Type} [BEq R] [LawfulBEq R]

theorem leftTangent_reshapeLeft (knot : Knot R) (tangent : Point R) :
    (knot.reshapeLeft tangent).leftTangent = tangent := by
  rw [reshapeLeft]
  split
  · next same => exact Point.agrees_iff_eq.1 same
  · rfl

theorem rightTangent_reshapeRight (knot : Knot R) (tangent : Point R) :
    (knot.reshapeRight tangent).rightTangent = tangent := by
  rw [reshapeRight]
  split
  · next same => exact Point.agrees_iff_eq.1 same
  · rfl

end Knot

namespace Path

theorem rightTangent_reshapedStart (s : Segment ℚ) (knot : Knot ℚ) :
    (reshapedStart s knot).rightTangent =
      if s.isLinear then knot.rightTangent
      else (s.split 0.5).1.firstHandle - (s.split 0.5).1.first := by
  rw [reshapedStart]
  split
  · rfl
  · exact Knot.rightTangent_reshapeRight _ _

theorem leftTangent_reshapedEnd (s : Segment ℚ) (knot : Knot ℚ) :
    (reshapedEnd s knot).leftTangent =
      if s.isLinear then knot.leftTangent
      else (s.split 0.5).2.lastHandle - (s.split 0.5).2.last := by
  rw [reshapedEnd]
  split
  · rfl
  · exact Knot.leftTangent_reshapeLeft _ _

theorem middleKnot_of_curved {s : Segment ℚ} (isCurved : s.isLinear = false) :
    middleKnot s =
      ⟨(s.split 0.5).1.last, (s.split 0.5).1.lastHandle - (s.split 0.5).1.last,
        (s.split 0.5).2.firstHandle - (s.split 0.5).2.first, .smooth⟩ := by
  rw [middleKnot, isCurved]
  rfl

theorem middleKnot_of_straight
    {s : Segment ℚ}
    (isStraight : s.isLinear = true) :
    middleKnot s = .linear s.center := by
  rw [middleKnot, if_pos isStraight, s.midpoint_eq_center]

/-- A knot in the middle of a segment lies halfway between the ends of its
tangents. -/
theorem leftTangent_middleKnot
    {s : Segment ℚ}
    (isSmooth : (middleKnot s).mode = .smooth) :
    (middleKnot s).leftTangent = -(middleKnot s).rightTangent := by
  cases shape : s.isLinear with
  | true =>
      rw [middleKnot_of_straight shape] at isSmooth
      cases isSmooth
  | false =>
      rw [middleKnot_of_curved shape]
      refine congrArg₂ Point.mk ?_ ?_ <;>
        · simp only [Segment.split, Point.lerp, Point.blend,
            Point.sub_x, Point.sub_y]
          norm_num
          ring

/-- Knots with the tangents that cutting gives them join to the halves of the
segment between them. -/
theorem halves_join
    {a b a' b' : Knot ℚ}
    (start : a'.position = a.position)
    (leaves : a'.rightTangent = (reshapedStart (join a b) a).rightTangent)
    (arrives : b'.leftTangent = (reshapedEnd (join a b) b).leftTangent)
    (stop : b'.position = b.position) :
    (join a b).Halves (join a' (middleKnot (join a b)))
      (join (middleKnot (join a b)) b') := by
  rw [rightTangent_reshapedStart] at leaves
  rw [leftTangent_reshapedEnd] at arrives
  cases shape : (join a b).isLinear with
  | false =>
      simp only [shape, Bool.false_eq_true, if_false] at leaves arrives
      have first :
          join a' (middleKnot (join a b)) = ((join a b).split 0.5).1 := by
        rw [middleKnot_of_curved shape, join, Knot.rightHandle, Knot.leftHandle,
          start, leaves]
        exact Segment.mk_offsets ((join a b).split 0.5).1
      have second :
          join (middleKnot (join a b)) b' = ((join a b).split 0.5).2 := by
        rw [middleKnot_of_curved shape, join, Knot.rightHandle, Knot.leftHandle,
          stop, arrives]
        exact Segment.mk_offsets ((join a b).split 0.5).2
      rw [first, second]
      exact Segment.halves_split shape
  | true =>
      simp only [shape, if_true] at leaves arrives
      obtain ⟨atFirst, atLast⟩ := Segment.isLinear_iff.1 shape
      refine ⟨fun isCurved => ?_, fun _ => ⟨?_, ?_⟩⟩
      · rw [shape] at isCurved
        cases isCurved
      · rw [middleKnot_of_straight shape, join, Knot.rightHandle,
          Knot.leftHandle, start, leaves]
        exact congrArg₂ (Segment.mk _ · · _) atFirst (Point.add_zero _)
      · rw [middleKnot_of_straight shape, join, Knot.rightHandle,
          Knot.leftHandle, stop, arrives]
        exact congrArg₂ (Segment.mk _ · · _) (Point.add_zero _) atLast

/-- With exact arithmetic, the two segments that take the place of one that is
cut run as it did, and a new knot that is smooth has opposite tangents. -/
theorem halves_of_subdivided
    (path : Path ℚ)
    (cuts : IndexSet)
    (existing : ∀ s ∈ cuts, s < path.segmentCount) :
    ∃ after, path.subdivided cuts = .ok after ∧ ∀ s ∈ cuts,
      ∃ whole first second knot,
      path.segment? s = some whole ∧
        after.segment? (shifted cuts s) = some first ∧
        after.segment? (shifted cuts s + 1) = some second ∧
        whole.Halves first second ∧
        after.knots[shifted cuts s + 1]? = some knot ∧
        (knot.mode = .smooth → knot.leftTangent = -knot.rightTangent) := by
  have has : path.Has cuts := existing
  refine ⟨path.rejoined cuts, subdivided_eq_rejoined has, fun s isCut => ?_⟩
  obtain ⟨a, b, isStart, isEnd, isSegment⟩ := exists_segment? (has s isCut)
  refine ⟨join a b, _, _, _, isSegment,
    has.segment?_rejoined_of_cut isCut isStart isSegment,
    has.segment?_rejoined_succ_of_cut isCut isEnd isSegment, ?_,
    has.getElem?_rejoined_succ isCut isSegment, leftTangent_middleKnot⟩
  refine halves_join (position_reshaped ..) ?_ ?_ (position_reshaped ..)
  · rw [rightTangent_reshaped, cut?_of_mem isCut, isSegment]
    rfl
  · rw [leftTangent_reshaped, before_next (has.lt_length isCut),
      cut?_of_mem isCut, isSegment]
    rfl

/-- A closed path through two knots, so that its two segments have the same
ends. -/
def loop : Path ℚ :=
  ⟨[.smooth ⟨0, 0⟩ ⟨0, 4⟩, .bezier ⟨8, 0⟩ ⟨0, 0⟩ ⟨0, 0⟩], true⟩

/-- The segment that closes the loop. -/
def closing : Segment ℚ :=
  ⟨⟨8, 0⟩, ⟨8, 0⟩, ⟨0, -4⟩, ⟨0, 0⟩⟩

/-- Both segments of the loop. -/
def bothSides : IndexSet :=
  ((∅ : IndexSet).insert 0).insert 1

theorem has_bothSides : ∀ s ∈ bothSides, s < loop.segmentCount := by
  intro s isCut
  have listed : s ∈ bothSides.toList := Std.ExtTreeSet.mem_toList.2 isCut
  have isList : bothSides.toList = [0, 1] := rfl
  rw [isList] at listed
  fin_cases listed <;> decide

theorem halves_of_loop :
    ∃ after first second,
      loop.subdivided bothSides = .ok after ∧ after.segment? 2 = some first ∧
      after.segment? 3 = some second ∧ closing.isLinear = false ∧
      closing.Halves first second := by
  obtain ⟨after, done, halves⟩ :=
    halves_of_subdivided loop bothSides has_bothSides
  obtain ⟨whole, first, second, _, isWhole, isFirst, isSecond, both, _⟩ :=
    halves 1 (by decide)
  have isClosing : loop.segment? 1 = some closing := by decide +kernel
  obtain rfl := Option.some.inj (isWhole.symm.trans isClosing)
  exact ⟨after, first, second, done, isFirst, isSecond, by decide +kernel, both⟩

end Path
end MotionScene
