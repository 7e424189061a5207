import MotionScene.Proofs.Curve.Positions
import MotionScene.Proofs.Number.Opposite

/-!
# Modes of knots under edits

A knot is consistent when its tangents are what its mode says: none for a linear
knot, opposite ones for a smooth knot.  Edits keep knots consistent as long as
the tangents they compute are numbers, but for one: setting the mode leaves the
tangents as they are, whatever the new mode asks of them.
-/

namespace MotionScene

/-! ## Opposite offsets -/

namespace Point

variable {p q : Point Float}

/-- Whether both coordinates are numbers. -/
def isNumber (p : Point Float) : Bool :=
  p.agrees p

/-- Both coordinates are opposite. -/
def Opposite (p q : Point Float) : Prop :=
  Number.Opposite p.x q.x ∧ Number.Opposite p.y q.y

namespace Opposite

theorem neg_self (p : Point Float) : (-p).Opposite p :=
  ⟨.neg_self p.x, .neg_self p.y⟩

theorem isNumber_iff (opposite : p.Opposite q) :
    p.isNumber = true ↔ q.isNumber = true := by
  simp only [isNumber, agrees, Bool.and_eq_true]
  exact and_congr opposite.1.beq_self_iff opposite.2.beq_self_iff

/-- Scaling and rotating keep opposite offsets opposite. -/
theorem applyVector (opposite : p.Opposite q) (t : Transform) :
    (t.applyVector p).Opposite (t.applyVector q) := by
  obtain ⟨horizontal, vertical⟩ := opposite
  exact ⟨((horizontal.mul _).mul _).sub ((vertical.mul _).mul _),
    ((horizontal.mul _).mul _).add ((vertical.mul _).mul _)⟩

end Opposite

theorem agrees_neg_iff :
    p.agrees (-q) = true ↔ p.Opposite q ∧ p.isNumber = true := by
  simp only [agrees, isNumber, Opposite, Bool.and_eq_true, neg_x, neg_y,
    Number.beq_neg_iff]
  tauto

/-- Only the zero offset is its own opposite. -/
theorem isZero_iff : p.isZero = true ↔ p.Opposite p ∧ p.isNumber = true := by
  simp only [isZero, agrees, zero, isNumber, Opposite, Bool.and_eq_true,
    Number.beq_zero_iff]
  tauto

@[simp] theorem isZero_zero : (zero : Point Float).isZero = true := rfl

end Point

/-! ## Consistent knots -/

namespace Knot

/-- Whether the tangents of a knot are what a mode asks for, coordinates
compared as numbers. -/
def suits (knot : Knot Float) : KnotMode → Bool
  | .linear => knot.leftTangent.isZero && knot.rightTangent.isZero
  | .smooth => knot.leftTangent.agrees (-knot.rightTangent)
  | .bezier => true

/-- Whether the tangents of a knot are what its own mode asks for. -/
def isConsistent (knot : Knot Float) : Bool :=
  knot.suits knot.mode

theorem isConsistent_smooth_iff (position right : Point Float) :
    (smooth position right).isConsistent = true ↔ right.isNumber = true :=
  (Point.Opposite.neg_self right).isNumber_iff

theorem isConsistent_straightened (knot : Knot Float) :
    knot.straightened.isConsistent = true := by
  simp [isConsistent, suits, straightened, linear]

/-- A transform keeps a knot consistent unless it makes a tangent that is tied
into something other than a number. -/
theorem isConsistent_transformed_iff
    {knot : Knot Float}
    (consistent : knot.isConsistent = true)
    (t : Transform) :
    (knot.transformed t).isConsistent = true ↔
      (knot.mode ≠ .bezier → (t.applyVector knot.leftTangent).isNumber = true ∧
        (t.applyVector knot.rightTangent).isNumber = true) := by
  obtain ⟨position, left, right, mode⟩ := knot
  cases mode with
  | bezier => exact iff_of_true rfl fun tied => absurd rfl tied
  | linear =>
      change (left.isZero && right.isZero) = true at consistent
      rw [Bool.and_eq_true, Point.isZero_iff, Point.isZero_iff] at consistent
      change
        ((t.applyVector left).isZero && (t.applyVector right).isZero) = true ↔ _
      rw [Bool.and_eq_true, Point.isZero_iff, Point.isZero_iff,
        and_iff_right (consistent.1.1.applyVector t),
        and_iff_right (consistent.2.1.applyVector t)]
      simp
  | smooth =>
      change left.agrees (-right) = true at consistent
      have opposite := (Point.agrees_neg_iff.1 consistent).1.applyVector t
      change (t.applyVector left).agrees (-t.applyVector right) = true ↔ _
      rw [Point.agrees_neg_iff, and_iff_right opposite, ← opposite.isNumber_iff]
      simp

end Knot

/-! ## Consistent paths -/

namespace Path

variable {path after : Path Float} {positions : IndexSet}

/-- Whether all knots are consistent. -/
def isConsistent (path : Path Float) : Bool :=
  path.knots.all Knot.isConsistent

theorem isConsistent_iff :
    path.isConsistent = true ↔ ∀ knot ∈ path.knots, knot.isConsistent = true :=
  List.all_eq_true

theorem isConsistent_of_getElem?
    (consistent : path.isConsistent = true)
    {i : Nat}
    {knot : Knot Float}
    (isKnot : path.knots[i]? = some knot) :
    knot.isConsistent = true :=
  isConsistent_iff.1 consistent knot (List.mem_of_getElem? isKnot)

theorem isConsistent_mapIdx_iff
    {knots : List (Knot Float)}
    {closed : Bool}
    (change : Nat → Knot Float → Knot Float) :
    (Path.mk (knots.mapIdx change) closed).isConsistent = true ↔
      ∀ i, ∀ knot ∈ knots[i]?, (change i knot).isConsistent = true := by
  rw [isConsistent_iff]
  constructor
  · intro consistent i knot isKnot
    have changed : (knots.mapIdx change)[i]? = some (change i knot) := by
      rw [List.getElem?_mapIdx, isKnot]
      rfl
    exact consistent _ (List.mem_of_getElem? changed)
  · intro consistent knot member
    obtain ⟨i, isKnot⟩ := List.getElem?_of_mem member
    rw [List.getElem?_mapIdx, Option.map_eq_some_iff] at isKnot
    obtain ⟨old, isOld, rfl⟩ := isKnot
    exact consistent i old isOld

/-- A path that is made after a check of positions is made whatever the check
looks at. -/
theorem eq_of_checkBelow
    {limit : Nat}
    {listed : List Nat}
    {made : Path Float}
    (done :
      (do
        path.checkBelow limit listed; return made : Except Fault
        (Path Float)) = .ok after) :
    after = made := by
  cases checked : path.checkBelow limit listed with
  | error fault =>
      rw [checked] at done
      cases done
  | ok _ =>
      rw [checked] at done
      exact (Except.ok.inj done).symm

/-- Knots that a change does not reach stay consistent, so only the changed ones
matter. -/
theorem isConsistent_changedAt_iff
    {change : Nat → Knot Float → Knot Float}
    (consistent : path.isConsistent = true)
    (done : path.changedAt positions change = .ok after) :
    after.isConsistent = true ↔
      ∀ i ∈ positions, ∀ knot ∈ path.knots[i]?,
        (change i knot).isConsistent = true := by
  rw [eq_of_checkBelow done, isConsistent_mapIdx_iff]
  refine forall_congr' fun i => ?_
  split
  · next listed => simp only [listed, true_imp_iff]
  · next unlisted =>
    refine iff_of_true (fun knot isKnot => ?_) (absurd · unlisted)
    exact isConsistent_of_getElem? consistent isKnot

theorem isConsistent_inserted
    {position : Nat}
    {knots : List (Knot Float)}
    (consistent : path.isConsistent = true)
    (supplied : ∀ knot ∈ knots, knot.isConsistent = true)
    (done : path.inserted position knots = .ok after) :
    after.isConsistent = true := by
  rw [inserted] at done
  split at done
  · cases done
    rw [isConsistent_iff] at consistent ⊢
    intro knot member
    rcases List.mem_append.1 member with front | back
    · rcases List.mem_append.1 front with before | new
      · exact consistent knot (List.mem_of_mem_take before)
      · exact supplied knot new
    · exact consistent knot (List.mem_of_mem_drop back)
  · cases done

theorem isConsistent_removed
    (consistent : path.isConsistent = true)
    (done : path.removed positions = .ok after) :
    after.isConsistent = true := by
  rw [eq_of_checkBelow done, isConsistent_iff]
  intro knot member
  obtain ⟨_, kept, rfl⟩ := List.mem_filterMap.1 member
  obtain ⟨i, inside, isKept⟩ := List.mem_mapIdx.1 kept
  split at isKept
  · cases isKept
  · exact isConsistent_iff.1 consistent knot
      (Option.some.inj isKept ▸ List.getElem_mem inside)

theorem isConsistent_modified
    {knots : Std.ExtTreeMap Nat (Knot Float)}
    (consistent : path.isConsistent = true)
    (supplied : ∀ knot : Knot Float, (∃ i : Nat, knots[i]? = some knot) →
      knot.isConsistent = true)
    (done : path.modified knots = .ok after) :
    after.isConsistent = true := by
  rw [eq_of_checkBelow done, isConsistent_mapIdx_iff]
  intro i knot isKnot
  rw [Std.ExtTreeMap.getD_eq_getD_getElem?]
  cases replaced : knots[i]? with
  | none => exact isConsistent_of_getElem? consistent isKnot
  | some new => exact supplied new ⟨i, replaced⟩

end Path

/-! ## Edits -/

namespace PathEdit

/-- The knots that an edit brings along. -/
def Supplies (knot : Knot Float) : PathEdit → Prop
  | add _ knots => knot ∈ knots
  | modify knots => ∃ i : Nat, knots[i]? = some knot
  | _ => False

/-- What an edit has to find on a path so as not to break the modes: a mode is
set where the tangents already suit it, and computed tangents that are tied
together are numbers. -/
def Fits (path : Path Float) : PathEdit → Prop
  | setMode positions mode =>
    ∀ i ∈ positions, ∀ knot ∈ path.knots[i]?, knot.suits mode = true
  | transform positions t =>
    ∀ i ∈ positions, ∀ knot ∈ path.knots[i]?, knot.mode ≠ .bezier →
      (t.applyVector knot.leftTangent).isNumber = true ∧
        (t.applyVector knot.rightTangent).isNumber = true
  | makeSmooth positions =>
    ∀ i ∈ positions, ∀ knot ∈ path.knots[i]?,
      (path.smoothed i knot).rightTangent.isNumber = true
  | _ => True

variable {path after : Path Float} {edit : PathEdit}

/-- An edit other than a subdivision keeps a path consistent if and only if it
fits the path. -/
theorem isConsistent_run_iff
    (consistent : path.isConsistent = true)
    (supplied : ∀ knot, edit.Supplies knot → knot.isConsistent = true)
    (notCut : ∀ cuts, edit ≠ .subdivide cuts)
    (done : edit.run path = .ok after) :
    after.isConsistent = true ↔ edit.Fits path := by
  cases edit with
  | add position knots =>
      exact iff_of_true
        (Path.isConsistent_inserted consistent supplied done) trivial
  | remove positions =>
      exact iff_of_true (Path.isConsistent_removed consistent done) trivial
  | modify knots =>
      exact iff_of_true
        (Path.isConsistent_modified consistent supplied done) trivial
  | transform positions t =>
      refine (Path.isConsistent_changedAt_iff consistent done).trans ?_
      refine forall₄_congr fun i _ knot isKnot => ?_
      exact Knot.isConsistent_transformed_iff
        (Path.isConsistent_of_getElem? consistent isKnot) t
  | subdivide cuts => exact absurd rfl (notCut cuts)
  | makeSmooth positions =>
      refine (Path.isConsistent_changedAt_iff consistent done).trans ?_
      exact forall₄_congr fun i _ knot _ =>
        Knot.isConsistent_smooth_iff knot.position _
  | makeLinear positions =>
      refine iff_of_true
        ((Path.isConsistent_changedAt_iff consistent done).2 ?_) trivial
      exact fun _ _ knot _ => knot.isConsistent_straightened
  | setMode positions mode =>
      exact Path.isConsistent_changedAt_iff consistent done
  | setClosed closed =>
      cases done
      exact iff_of_true consistent trivial

/-- Three knots, one of each mode, are stretched, mirrored and turned. -/
theorem isConsistent_turned :
    let path : Path Float :=
      ⟨[.smooth ⟨0.0, 0.0⟩ ⟨1.0, 2.0⟩, .linear ⟨4.0, 0.0⟩,
        .bezier ⟨4.0, 4.0⟩ ⟨0.0, -1.0⟩ ⟨-3.0, 0.5⟩], true⟩
    let edit := transform {0, 1, 2} ⟨⟨7.0, 0.0⟩, ⟨-2.0, 3.0⟩, 30.0⟩
    path.isConsistent = true ∧
      (∀ knot, edit.Supplies knot → knot.isConsistent = true) ∧
      (∀ cuts, edit ≠ subdivide cuts) ∧
        ∃ after, edit.run path = .ok after ∧ after.isConsistent = true ∧
        edit.Fits path := by
  refine ⟨by decide +kernel, nofun, nofun, _, rfl, by decide +kernel, ?_⟩
  refine (isConsistent_run_iff ?_ ?_ ?_ rfl).1 ?_
  · decide +kernel
  · nofun
  · nofun
  · decide +kernel

/-- A knot with two tangents of its own keeps both when it is declared
linear. -/
theorem inconsistent_of_setMode :
    let path : Path Float :=
      ⟨[.bezier ⟨0.0, 0.0⟩ ⟨-1.0, 0.0⟩ ⟨2.0, 0.0⟩], false⟩
    path.isConsistent = true ∧
      ∃ after, (setMode {0} .linear).run path = .ok after ∧
      after.isConsistent = false :=
  ⟨by decide +kernel, _, rfl, by decide +kernel⟩

end PathEdit
end MotionScene
