import Mathlib.Algebra.Order.Ring.Nat
import MotionScene.Curve.Edit

/-!
# Positions on a path

Which positions an edit accepts, which segments a path has and which knots they
join, and where the knots of a path come to stand when further ones are put
between them.
-/

namespace MotionScene
namespace Path

variable {R : Type} {path : Path R} {i : Nat}

theorem checkBelow_eq_ok_iff {limit : Nat} {positions : List Nat} :
    path.checkBelow limit positions = .ok () ↔
      ∀ position ∈ positions, position < limit := by
  rw [checkBelow]
  cases refused : positions.find? (limit ≤ ·) with
  | none => simpa using List.find?_eq_none.1 refused
  | some position =>
      have high : limit ≤ position := by simpa using List.find?_some refused
      refine iff_of_false (by simp) fun below => ?_
      exact absurd (below position (List.mem_of_find?_eq_some refused))
        (not_lt.2 high)

/-! ## Segments -/

theorem lt_segmentCount_iff :
    i < path.segmentCount ↔
      1 < path.knots.length ∧ i < path.knots.length ∧
        (path.closed = true ∨ i + 1 < path.knots.length) := by
  rw [segmentCount]
  split
  · omega
  · split
    · next closed =>
      simp only [closed, true_or, and_true]
      omega
    · next opened =>
      simp only [opened, Bool.false_eq_true, false_or]
      omega

/-- A segment that the path has runs from the knot of its position to the next
one. -/
theorem exists_segment?
    [Add R]
    (inside : i < path.segmentCount) :
    ∃ a b, path.knots[i]? = some a ∧
      path.knots[(i + 1) % path.knots.length]? = some b ∧
      path.segment? i = some (join a b) := by
  obtain ⟨several, isKnot, _⟩ := lt_segmentCount_iff.1 inside
  have next : (i + 1) % path.knots.length < path.knots.length :=
    Nat.mod_lt _ (by omega)
  refine ⟨path.knots[i], path.knots[(i + 1) % path.knots.length],
    List.getElem?_eq_getElem isKnot, List.getElem?_eq_getElem next, ?_⟩
  rw [segment?, if_pos inside, List.getElem?_eq_getElem isKnot,
    List.getElem?_eq_getElem next]
  rfl

theorem segment?_eq_join
    [Add R]
    (inside : i < path.segmentCount)
    {a b : Knot R}
    (first : path.knots[i]? = some a)
    (last : path.knots[(i + 1) % path.knots.length]? = some b) :
    path.segment? i = some (join a b) := by
  rw [segment?, if_pos inside, first, last]
  rfl

theorem join_congr
    [Add R]
    {a b a' b' : Knot R}
    (start : a.position = a'.position)
    (leaves : a.rightTangent = a'.rightTangent)
    (arrives : b.leftTangent = b'.leftTangent)
    (stop : b.position = b'.position) :
    join a b = join a' b' := by
  simp only [join, Knot.rightHandle, Knot.leftHandle, start, leaves,
    arrives, stop]

/-- The knot after a position has that position before it. -/
theorem before_next (inside : i < path.knots.length) :
    path.before ((i + 1) % path.knots.length) = i := by
  rw [before]
  rcases Nat.lt_or_ge (i + 1) path.knots.length with isKnot | wraps
  · rw [Nat.mod_eq_of_lt isKnot,
      show i + 1 + path.knots.length - 1 = i + path.knots.length by omega,
      Nat.add_mod_right, Nat.mod_eq_of_lt inside]
  · have last : i + 1 = path.knots.length := by omega
    rw [last, Nat.mod_self, Nat.zero_add, ← last, Nat.add_sub_cancel,
      Nat.mod_eq_of_lt (by omega)]

/-! ## Positions after cuts -/

/-- Where the knot of a position comes to stand: each cut before it puts one
knot before it. -/
def shifted (cuts : IndexSet) (i : Nat) : Nat :=
  i + cuts.toList.countP (· < i)

theorem countP_lt_succ (positions : List Nat) (i : Nat) :
    positions.countP (· < i + 1) =
      positions.countP (· < i) + positions.count i := by
  induction positions with
  | nil => rfl
  | cons position rest inductionHypothesis =>
      rw [List.countP_cons, List.countP_cons, List.count_cons,
        inductionHypothesis]
      rcases Nat.lt_trichotomy position i with below | rfl | above
      · simp [below, below.ne, Nat.lt_succ_of_lt below]
        omega
      · simp
        omega
      · simp [above.ne', not_lt.2 above.le, not_lt.2 (Nat.succ_le_of_lt above)]

variable {cuts : IndexSet}

theorem count_toList (cuts : IndexSet) (i : Nat) :
    cuts.toList.count i = if i ∈ cuts then 1 else 0 := by
  have distinct : cuts.toList.Nodup := by
    refine Std.ExtTreeSet.distinct_toList.imp fun differ same => differ ?_
    exact Nat.compare_eq_eq.2 same
  simp only [distinct.count, Std.ExtTreeSet.mem_toList]

@[simp] theorem shifted_zero (cuts : IndexSet) : shifted cuts 0 = 0 := by
  simp [shifted]

theorem shifted_succ (cuts : IndexSet) (i : Nat) :
    shifted cuts (i + 1) = shifted cuts i + (if i ∈ cuts then 2 else 1) := by
  rw [shifted, shifted, countP_lt_succ, count_toList]
  split <;> omega

/-- Past all cuts, each of them has put a knot before. -/
theorem shifted_of_forall_lt {limit : Nat} (below : ∀ s ∈ cuts, s < limit) :
    shifted cuts limit = limit + cuts.size := by
  rw [shifted, ← Std.ExtTreeSet.length_toList, List.countP_eq_length.2]
  intro s member
  exact decide_eq_true (below s (Std.ExtTreeSet.mem_toList.1 member))

theorem strictMono_shifted (cuts : IndexSet) : StrictMono (shifted cuts) := by
  refine strictMono_nat_of_lt_succ fun i => ?_
  rw [shifted_succ]
  split <;> omega

/-- Every position after the cuts is that of a knot from before, or follows one
that starts a cut segment. -/
theorem exists_eq_shifted {limit j : Nat} (inside : j < shifted cuts limit) :
    ∃ i < limit, j = shifted cuts i ∨ (i ∈ cuts ∧ j = shifted cuts i + 1) := by
  induction limit with
  | zero => simp at inside
  | succ limit inductionHypothesis =>
      rcases Nat.lt_or_ge j (shifted cuts limit) with earlier | later
      · obtain ⟨i, below, found⟩ := inductionHypothesis earlier
        exact ⟨i, Nat.lt_succ_of_lt below, found⟩
      · refine ⟨limit, Nat.lt_succ_self limit, ?_⟩
        rw [shifted_succ] at inside
        split at inside
        · next isCut =>
          rcases Nat.eq_or_lt_of_le later with same | after
          · exact .inl same.symm
          · exact .inr ⟨isCut, by omega⟩
        · exact .inl (by omega)

end Path
end MotionScene
