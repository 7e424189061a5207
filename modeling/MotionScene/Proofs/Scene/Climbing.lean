import Mathlib.Data.List.Perm.Subperm
import Mathlib.Logic.Relation
import MotionScene.Proofs.Scene.Places

/-!
# Climbing from owner to parent

An owner lies within another one when following parents leads from the first to
the second.  The bounded search for this relation answers correctly on every
scene whose links of parents form no cycle.
-/

namespace MotionScene
namespace Scene

variable {scene : Scene}

/-- An owner is another one, or following parents leads from it to the other
one. -/
def Climbs (scene : Scene) : OwnerId → OwnerId → Prop :=
  Relation.ReflTransGen fun id parent => scene.parentOf id = some parent

/-- No owner is above itself. -/
def Acyclic (scene : Scene) : Prop :=
  ∀ id parent, scene.parentOf id = some parent → ¬ scene.Climbs parent id

namespace Climbs

theorem refl (scene : Scene) (id : OwnerId) : scene.Climbs id id :=
  Relation.ReflTransGen.refl

theorem trans
    {id middle ancestor : OwnerId}
    (first : scene.Climbs id middle)
    (second : scene.Climbs middle ancestor) :
    scene.Climbs id ancestor :=
  Relation.ReflTransGen.trans first second

theorem head
    {id parent ancestor : OwnerId}
    (step : scene.parentOf id = some parent)
    (rest : scene.Climbs parent ancestor) :
    scene.Climbs id ancestor :=
  Relation.ReflTransGen.head step rest

theorem single {id parent : OwnerId} (step : scene.parentOf id = some parent) :
    scene.Climbs id parent :=
  Relation.ReflTransGen.single step

/-- A climb is empty or begins with the step to the parent. -/
theorem cases_head
    {id ancestor : OwnerId}
    (climbs : scene.Climbs id ancestor) :
    id = ancestor ∨ ∃ parent,
      scene.parentOf id = some parent ∧ scene.Climbs parent ancestor :=
  Relation.ReflTransGen.cases_head climbs

/-- A climb is empty or ends with a step from a child. -/
theorem cases_tail
    {id ancestor : OwnerId}
    (climbs : scene.Climbs id ancestor) :
    ancestor = id ∨ ∃ child,
      scene.Climbs id child ∧ scene.parentOf child = some ancestor :=
  Relation.ReflTransGen.cases_tail climbs

/-- Nothing but itself is above an owner without a parent. -/
theorem eq_of_top
    {top ancestor : OwnerId}
    (parentless : scene.parentOf top = none)
    (climbs : scene.Climbs top ancestor) :
    top = ancestor := by
  rcases climbs.cases_head with same | ⟨parent, step, _⟩
  · exact same
  · rw [parentless] at step
    cases step

/-- Of two owners above the same one, one is above the other. -/
theorem total
    {id first second : OwnerId}
    (toFirst : scene.Climbs id first)
    (toSecond : scene.Climbs id second) :
    scene.Climbs first second ∨ scene.Climbs second first := by
  refine Relation.ReflTransGen.total_of_right_unique ?_ toFirst toSecond
  intro lower upper other step again
  exact Option.some.inj (step.symm.trans again)

/-- Without circles, no two owners are above each other. -/
theorem antisymm
    (acyclic : scene.Acyclic)
    {id ancestor : OwnerId}
    (upward : scene.Climbs id ancestor)
    (back : scene.Climbs ancestor id) :
    id = ancestor := by
  rcases upward.cases_head with same | ⟨parent, step, above⟩
  · exact same
  · exact absurd (above.trans back) (acyclic id parent step)

/-- A climb uses only parents that another scene has as well. -/
theorem mono
    {other : Scene}
    (parents : ∀ id parent, scene.parentOf id = some parent →
      other.parentOf id = some parent)
    {id ancestor : OwnerId}
    (climbs : scene.Climbs id ancestor) :
    other.Climbs id ancestor :=
  Relation.ReflTransGen.mono parents _ _ climbs

/-- A climb that does not pass an owner is the same where only that owner has
another parent. -/
theorem avoiding
    {other : Scene}
    {moved : OwnerId}
    (parents : ∀ id, id ≠ moved → other.parentOf id = scene.parentOf id)
    {id ancestor : OwnerId}
    (climbs : scene.Climbs id ancestor)
    (avoids : ¬ scene.Climbs id moved) :
    other.Climbs id ancestor := by
  induction climbs using Relation.ReflTransGen.head_induction_on with
  | refl => exact refl other ancestor
  | @head id parent step rest inductionHypothesis =>
      have differs : id ≠ moved := by
        rintro rfl
        exact avoids (refl scene id)
      refine head ((parents id differs).trans step) (inductionHypothesis ?_)
      intro above
      exact avoids (head step above)

/-- A climb to an owner is the same where only that owner has another parent. -/
theorem until_moved
    {other : Scene}
    {moved : OwnerId}
    (parents : ∀ id, id ≠ moved → other.parentOf id = scene.parentOf id)
    {id : OwnerId}
    (climbs : scene.Climbs id moved) :
    other.Climbs id moved := by
  induction climbs using Relation.ReflTransGen.head_induction_on with
  | refl => exact refl other moved
  | @head id parent step rest inductionHypothesis =>
      by_cases same : id = moved
      · rw [same]
        exact refl other moved
      · exact head ((parents id same).trans step) inductionHypothesis

end Climbs

/-- Where climbing comes to an end, it makes no circle. -/
theorem acyclic_of_ends
    (ends : ∀ id parent, scene.parentOf id = some parent →
      ∃ top, scene.Climbs id top ∧ scene.parentOf top = none) :
    scene.Acyclic := by
  intro id parent step climbs
  obtain ⟨top, above, parentless⟩ := ends id parent step
  have circle : ∀ other, scene.Climbs id other → scene.Climbs other id := by
    intro other reached
    induction reached with
    | refl => exact Climbs.refl scene id
    | @tail other next _ upward inductionHypothesis =>
        rcases inductionHypothesis.cases_head with rfl | ⟨after, first, rest⟩
        · rw [step] at upward
          cases upward
          exact climbs
        · rw [first] at upward
          cases upward
          exact rest
  have same : top = id := (circle top above).eq_of_top parentless
  rw [same, step] at parentless
  cases parentless

/-! ## The bounded search -/

theorem contains_of_parentOf
    {id parent : OwnerId}
    (step : scene.parentOf id = some parent) :
    scene.contains id := by
  obtain ⟨owner, found, _⟩ := scene.parentOf_eq_some_iff.1 step
  simp [contains, found]

theorem mem_ids_iff {id : OwnerId} :
    id ∈ scene.owners.ids ↔ scene.contains id := by
  rw [Registry.ids, Std.ExtTreeMap.mem_keys,
    Std.ExtTreeMap.mem_iff_isSome_getElem?]
  rfl

/-- A list of existing owners without repetition is no longer than the
registry. -/
theorem length_le_size
    {ids : List OwnerId}
    (nodup : ids.Nodup)
    (present : ∀ id ∈ ids, scene.contains id) :
    ids.length ≤ scene.owners.size := by
  have subset : ids ⊆ scene.owners.ids :=
    fun id member => mem_ids_iff.2 (present id member)
  have bound := (nodup.subperm subset).length_le
  rwa [Registry.ids, Std.ExtTreeMap.length_keys] at bound

/-- One step of the search looks at the owner itself and goes on at its
parent. -/
theorem climbs_succ_iff {fuel : Nat} {id ancestor : OwnerId} :
    scene.climbs (fuel + 1) id ancestor = true ↔ id = ancestor ∨
      ∃ parent, scene.parentOf id = some parent ∧
        scene.climbs fuel parent ancestor = true := by
  simp only [climbs, Bool.or_eq_true, decide_eq_true_eq, ← parentOf.eq_def]
  cases scene.parentOf id <;> simp

theorem climbs_of_climbs
    {fuel : Nat}
    {id ancestor : OwnerId}
    (found : scene.climbs fuel id ancestor = true) :
    scene.Climbs id ancestor := by
  induction fuel generalizing id with
  | zero => simp [climbs] at found
  | succ fuel inductionHypothesis =>
      rcases climbs_succ_iff.1 found with rfl | ⟨parent, step, above⟩
      · exact Climbs.refl scene id
      · exact Climbs.head step (inductionHypothesis above)

/-- Without cycles the search comes to every owner above the first one before
its steps run out:  the owners it has passed are all different. -/
theorem climbs_of_passed
    (acyclic : scene.Acyclic)
    {id ancestor : OwnerId}
    (above : scene.Climbs id ancestor)
    {fuel : Nat}
    {passed : List OwnerId}
    (nodup : passed.Nodup)
    (beneath : ∀ other ∈ passed, ∃ parent,
      scene.parentOf other = some parent ∧ scene.Climbs parent id)
    (enough : scene.owners.size + 1 ≤ fuel + passed.length) :
    scene.climbs fuel id ancestor = true := by
  have bound : passed.length ≤ scene.owners.size := by
    apply length_le_size nodup
    intro other member
    obtain ⟨parent, step, _⟩ := beneath other member
    exact contains_of_parentOf step
  induction above using Relation.ReflTransGen.head_induction_on
    generalizing fuel passed with
  | refl =>
      obtain ⟨fuel, rfl⟩ : ∃ rest, fuel = rest + 1 := ⟨fuel - 1, by omega⟩
      simp [climbs]
  | @head id next step rest inductionHypothesis =>
      obtain ⟨fuel, rfl⟩ : ∃ rest, fuel = rest + 1 := ⟨fuel - 1, by omega⟩
      have fresh : id ∉ passed := by
        intro member
        obtain ⟨parent, upward, climbs⟩ := beneath id member
        exact acyclic id parent upward climbs
      have found : scene.climbs fuel next ancestor = true := by
        apply @inductionHypothesis fuel (id :: passed)
        · exact List.nodup_cons.2 ⟨fresh, nodup⟩
        · intro other member
          rcases List.mem_cons.1 member with rfl | member
          · exact ⟨next, step, Climbs.refl scene next⟩
          · obtain ⟨parent, upward, climbs⟩ := beneath other member
            exact ⟨parent, upward, climbs.trans (Climbs.single step)⟩
        · simp only [List.length_cons]
          omega
        · apply length_le_size (List.nodup_cons.2 ⟨fresh, nodup⟩)
          intro other member
          rcases List.mem_cons.1 member with rfl | member
          · exact contains_of_parentOf step
          · obtain ⟨parent, upward, _⟩ := beneath other member
            exact contains_of_parentOf upward
      exact climbs_succ_iff.2 (Or.inr ⟨next, step, found⟩)

/-- The bounded search decides whether one owner lies within another. -/
theorem isWithin_iff (acyclic : scene.Acyclic) {id ancestor : OwnerId} :
    scene.isWithin id ancestor = true ↔ scene.Climbs id ancestor := by
  constructor
  · exact climbs_of_climbs
  · intro above
    apply climbs_of_passed acyclic above List.nodup_nil
    · simp
    · simp

end Scene
end MotionScene
