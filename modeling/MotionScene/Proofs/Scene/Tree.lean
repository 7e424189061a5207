import Mathlib.Data.List.Chain
import MotionScene.Proofs.Document.Restoring

/-!
# Valid scenes are trees

Validation follows links downwards, skips what it has seen, and counts how often
an owner is linked; it never looks for circles.  That is enough: in a scene that
it accepts, every object and tag has exactly one place, and climbing from there
comes to the root.
-/

namespace MotionScene
namespace Scene

variable {scene : Scene}

/-- The owners on the way up from one owner to another, both included: each
names the next one as its parent, and none comes twice. -/
structure Ascent (scene : Scene) (id top : OwnerId) (path : List OwnerId) :
    Prop where
  first : path.head? = some id
  last : path.getLast? = some top
  steps : path.IsChain fun lower upper => scene.parentOf lower = some upper
  nodup : path.Nodup

/-- Without circles, climbing passes no owner twice. -/
theorem Climbs.exists_ascent
    (acyclic : scene.Acyclic)
    {id top : OwnerId}
    (climbs : scene.Climbs id top) :
    ∃ path, scene.Ascent id top path ∧ ∀ passed ∈ path,
      scene.Climbs id passed := by
  induction climbs using Relation.ReflTransGen.head_induction_on with
  | refl =>
      refine ⟨[top],
        ⟨rfl, rfl, List.isChain_singleton top, List.nodup_singleton top⟩, ?_⟩
      intro passed member
      rw [List.mem_singleton.1 member]
      exact Climbs.refl scene top
  | @head id parent step rest inductionHypothesis =>
      obtain ⟨path, ascent, above⟩ := inductionHypothesis
      obtain ⟨others, rfl⟩ : ∃ others, path = parent :: others :=
        List.head?_eq_some_iff.1 ascent.first
      have fresh : id ∉ parent :: others :=
        fun member => acyclic id parent step (above id member)
      refine ⟨id :: parent :: others, ⟨rfl, ?_, ?_, ?_⟩, ?_⟩
      · rw [List.getLast?_cons_cons]
        exact ascent.last
      · exact List.isChain_cons_cons.2 ⟨step, ascent.steps⟩
      · exact List.nodup_cons.2 ⟨fresh, ascent.nodup⟩
      · intro passed member
        rcases List.mem_cons.1 member with rfl | higher
        · exact Climbs.refl scene passed
        · exact Climbs.head step (above passed higher)

/-- Objects and tags form a tree under the root, and every list of children or
tags belongs to it. -/
structure IsTree (scene : Scene) : Prop where
  root_category : scene.categoryOf scene.root = some .object
  root_parent : scene.parentOf scene.root = none
  /-- From every object and tag there is a way up to the root. -/
  ascent : ∀ id, scene.categoryOf id = some .object ∨
    scene.categoryOf id = some .tag → ∃ path, scene.Ascent id scene.root path
  /-- An object is once among the children of its parent, and in no other
  list. -/
  object : ∀ id, scene.categoryOf id = some .object → id ≠ scene.root →
    ∃ parent, scene.parentOf id = some parent ∧ ∀ host,
      (scene.entries (.children host)).count id =
        (if host = parent then 1 else 0) ∧
        (scene.entries (.tags host)).count id = 0
  /-- A tag is once among the tags of its parent, and in no other list. -/
  tag : ∀ id, scene.categoryOf id = some .tag →
    ∃ parent, scene.parentOf id = some parent ∧ ∀ host,
      (scene.entries (.children host)).count id = 0 ∧
        (scene.entries (.tags host)).count id = if host = parent then 1 else 0
  /-- Styles and tools belong to nobody. -/
  unowned : ∀ id, scene.categoryOf id = some .style ∨
    scene.categoryOf id = some .tool →
    ∀ host, id ∉ scene.entries (.children host) ∧
      id ∉ scene.entries (.tags host)

namespace Demands

variable (demands : scene.Demands)

include demands

/-- Everything that has a parent is an object or a tag. -/
theorem category_of_parentOf
    {id parent : OwnerId}
    (step : scene.parentOf id = some parent) :
    scene.categoryOf id = some .object ∨ scene.categoryOf id = some .tag := by
  rcases demands.mem_of_parentOf step with child | tag
  · exact Or.inl (demands.of_mem_children child).1
  · exact Or.inr (demands.of_mem_tags tag).1

theorem climbs_root
    {id : OwnerId}
    (category : scene.categoryOf id = some .object ∨
      scene.categoryOf id = some .tag) :
    scene.Climbs id scene.root := by
  obtain ⟨last, _, climbs, rfl | tag⟩ := demands.reached category
  · exact climbs
  · exact Climbs.head (demands.of_mem_tags tag).2 climbs

theorem acyclic : scene.Acyclic := by
  refine acyclic_of_ends fun id parent step => ⟨scene.root, ?_, demands.root.2⟩
  exact demands.climbs_root (demands.category_of_parentOf step)

/-- Only the root has no parent among objects and tags. -/
theorem exists_parentOf
    {id : OwnerId}
    (category : scene.categoryOf id = some .object ∨
      scene.categoryOf id = some .tag)
    (differs : id ≠ scene.root) :
    ∃ parent, scene.parentOf id = some parent := by
  rcases (demands.climbs_root category).cases_head with same | ⟨parent, step, _⟩
  · exact absurd same differs
  · exact ⟨parent, step⟩

/-- Children are the objects that name the host of the list as their parent,
each of them once. -/
theorem count_children (host id : OwnerId) :
    (scene.entries (.children host)).count id =
      if scene.categoryOf id = some .object ∧ scene.parentOf id = some host then
        1
      else 0 := by
  rw [(demands.nodup_lists host).1.count]
  refine if_congr ⟨fun member => ?_, ?_⟩ rfl rfl
  · exact ⟨(demands.of_mem_children member).1,
      (demands.of_mem_children member).2.1⟩
  · rintro ⟨category, step⟩
    refine (demands.mem_of_parentOf step).resolve_right fun tag => ?_
    cases category.symm.trans (demands.of_mem_tags tag).1

/-- Tags are the tags that name the host of the list as their parent, each of
them once. -/
theorem count_tags (host id : OwnerId) :
    (scene.entries (.tags host)).count id =
      if scene.categoryOf id = some .tag ∧ scene.parentOf id = some host then
        1
      else 0 := by
  rw [(demands.nodup_lists host).2.count]
  refine if_congr ⟨demands.of_mem_tags, ?_⟩ rfl rfl
  rintro ⟨category, step⟩
  refine (demands.mem_of_parentOf step).resolve_left fun child => ?_
  cases category.symm.trans (demands.of_mem_children child).1

theorem isTree : scene.IsTree := by
  constructor
  case root_category => exact demands.root.1
  case root_parent => exact demands.root.2
  case ascent =>
    intro id category
    obtain ⟨path, ascent, _⟩ :=
      (demands.climbs_root category).exists_ascent demands.acyclic
    exact ⟨path, ascent⟩
  case object =>
    intro id category differs
    obtain ⟨parent, step⟩ := demands.exists_parentOf (Or.inl category) differs
    refine ⟨parent, step, fun host => ?_⟩
    rw [demands.count_children, demands.count_tags, category, step]
    simp [eq_comm]
  case tag =>
    intro id category
    have differs : id ≠ scene.root := by
      rintro rfl
      cases demands.root.1.symm.trans category
    obtain ⟨parent, step⟩ := demands.exists_parentOf (Or.inr category) differs
    refine ⟨parent, step, fun host => ?_⟩
    rw [demands.count_children, demands.count_tags, category, step]
    simp [eq_comm]
  case unowned =>
    intro id category host
    rw [← List.count_eq_zero, ← List.count_eq_zero, demands.count_children,
      demands.count_tags]
    rcases category with category | category <;> simp [category]

end Demands

/-- Validation guarantees a tree. -/
theorem isTree_of_valid (valid : scene.violations = []) : scene.IsTree :=
  (tolerable_violations_iff.1 (valid ▸ tolerable_nil)).isTree

theorem stored_isTree :
    (Document.unchecked Document.stored {}).scene.violations = [] ∧
      (Document.unchecked Document.stored {}).scene.IsTree :=
  ⟨Document.violations_stored, isTree_of_valid Document.violations_stored⟩

end Scene
end MotionScene
