import MotionScene.Proofs.Scene.Registering
import MotionScene.Proofs.Scene.Walking

/-!
# Handing lists over

An owner hands its children and tags over to a new one.  The new owner is loose
until it is attached; everything that lay beneath the old owner now lies beneath
the new one.
-/

namespace MotionScene
namespace Scene

variable {scene other : Scene} {loose : Set OwnerId} {source heir : OwnerId}

/-- One scene is another one where an owner has handed its lists over to a new
one. -/
structure HandsOver (scene other : Scene) (source heir : OwnerId) : Prop where
  known : (scene.categoryOf source).isSome
  absent : scene.categoryOf heir = none
  root : other.root = scene.root
  category : ∀ id, other.categoryOf id =
    if id = heir then some .object else scene.categoryOf id
  parent : ∀ id, other.parentOf id = (scene.parentOf id).map fun parent =>
    if parent = source then heir else parent
  inherited : ∀ place, place.host? = some heir →
    other.entries place = scene.entries (place.moved source)
  emptied : ∀ place, place.host? = some source → other.entries place = []
  kept : ∀ place, place.host? ≠ some heir → place.host? ≠ some source →
    other.entries place = scene.entries place

namespace HandsOver

theorem ne (hands : scene.HandsOver other source heir) : heir ≠ source := by
  rintro rfl
  have known := hands.known
  rw [hands.absent] at known
  cases known

theorem categoryOf_of_known
    (hands : scene.HandsOver other source heir)
    {id : OwnerId}
    {category : Category}
    (known : scene.categoryOf id = some category) :
    id ≠ heir ∧ other.categoryOf id = some category := by
  have differs : id ≠ heir := by
    rintro rfl
    rw [hands.absent] at known
    cases known
  rw [hands.category, if_neg differs]
  exact ⟨differs, known⟩

/-- The new owner stands nowhere in the old scene. -/
theorem home?_heir (hands : scene.HandsOver other source heir) :
    scene.home? heir = none := by
  simp [home?, hands.absent]

theorem parentOf_heir (hands : scene.HandsOver other source heir) :
    other.parentOf heir = none := by
  rw [hands.parent, Option.map_eq_none_iff]
  by_contra exists_parent
  obtain ⟨parent, step⟩ := Option.ne_none_iff_exists'.1 exists_parent
  have known := contains_of_parentOf step
  rw [contains_eq_categoryOf, hands.absent] at known
  cases known

/-- Nothing lies beneath the old owner any more. -/
theorem parentOf_ne_source
    (hands : scene.HandsOver other source heir)
    (id : OwnerId) :
    other.parentOf id ≠ some source := by
  intro step
  rw [hands.parent] at step
  obtain ⟨parent, _, renamed⟩ := Option.map_eq_some_iff.1 step
  split at renamed
  · exact hands.ne renamed
  · next differs => exact differs renamed

/-- What climbs to an owner still does so, or now climbs to the new owner. -/
theorem climbs
    (hands : scene.HandsOver other source heir)
    {id top : OwnerId}
    (climbs : scene.Climbs id top) :
    other.Climbs id top ∨ other.Climbs id heir := by
  induction climbs using Relation.ReflTransGen.head_induction_on with
  | refl => exact Or.inl (.refl other top)
  | @head id parent step _ inductionHypothesis =>
      by_cases isSource : parent = source
      · refine Or.inr (.single ?_)
        rw [hands.parent, step, Option.map_some, if_pos isSource]
      · have onward : other.parentOf id = some parent := by
          rw [hands.parent, step, Option.map_some, if_neg isSource]
        exact inductionHypothesis.imp (.head onward) (.head onward)

/-- An owner belongs to a list of the new owner when it belonged to that of the
old one. -/
theorem home?_inherited
    (hands : scene.HandsOver other source heir)
    (linked : scene.Linked loose)
    {place : Place}
    (belongs : place.host? = some heir)
    {id : OwnerId}
    (differs : id ≠ heir) :
    other.home? id = some place ↔
      scene.home? id = some (place.moved source) := by
  rw [home?_eq_some_iff, home?_eq_some_iff, hands.category, if_neg differs,
    Place.category_moved, belongs, Place.host?_moved belongs, hands.parent]
  simp only [Option.some.injEq, forall_eq', Option.map_eq_some_iff,
    and_congr_right_iff]
  intro _
  constructor
  · rintro ⟨parent, step, renamed⟩
    split at renamed
    · next same => rw [step, same]
    · have known := linked.host_category id parent step
      exact absurd renamed (hands.categoryOf_of_known known).1
  · intro step
    exact ⟨source, step, if_pos rfl⟩

/-- An owner belongs to any other list when it did so before. -/
theorem home?_kept
    (hands : scene.HandsOver other source heir)
    {place : Place}
    (notHeir : place.host? ≠ some heir)
    (notSource : place.host? ≠ some source)
    {id : OwnerId}
    (differs : id ≠ heir) :
    other.home? id = some place ↔ scene.home? id = some place := by
  rw [home?_eq_some_iff, home?_eq_some_iff, hands.category, if_neg differs]
  refine and_congr_right fun _ => forall_congr' fun host =>
    forall_congr' fun belongs => ?_
  rw [belongs] at notHeir notSource
  rw [hands.parent, Option.map_eq_some_iff]
  constructor
  · rintro ⟨parent, step, renamed⟩
    split at renamed
    · exact absurd (congrArg some renamed.symm) notHeir
    · rw [step, renamed]
  · intro step
    refine ⟨host, step, if_neg ?_⟩
    rintro rfl
    exact notSource rfl

/-- Every list holds what belongs there, except loose owners and the new one. -/
theorem mem_entries
    (hands : scene.HandsOver other source heir)
    (linked : scene.Linked loose)
    (place : Place)
    (id : OwnerId) :
    id ∈ other.entries place ↔
      other.home? id = some place ∧ id ∉ loose ∪ {heir} := by
  have unlisted : ∀ place, heir ∉ scene.entries place := by
    intro place member
    have home := ((linked.listed place heir).1 member).1
    rw [hands.home?_heir] at home
    cases home
  simp only [Set.mem_union, Set.mem_singleton_iff, not_or]
  by_cases isHeir : place.host? = some heir
  · rw [hands.inherited place isHeir]
    by_cases same : id = heir
    · subst same
      simp [unlisted]
    · rw [linked.listed, hands.home?_inherited linked isHeir same]
      simp [same]
  · by_cases isSource : place.host? = some source
    · rw [hands.emptied place isSource]
      simp only [List.not_mem_nil, false_iff, not_and]
      intro home
      exact absurd ((other.home?_eq_some_iff.1 home).2 source isSource)
        (hands.parentOf_ne_source id)
    · rw [hands.kept place isHeir isSource]
      by_cases same : id = heir
      · subst same
        simp [unlisted]
      · rw [linked.listed, hands.home?_kept isHeir isSource same]
        simp [same]

/-- The new owner is loose, and everything else stands where it belongs. -/
theorem linked
    (hands : scene.HandsOver other source heir)
    (linked : scene.Linked loose) :
    other.Linked (loose ∪ {heir}) := by
  have rootKnown := hands.categoryOf_of_known linked.root_category
  constructor
  case root_category =>
    rw [hands.root]
    exact rootKnown.2
  case root_parent =>
    rw [hands.root, hands.parent, linked.root_parent]
    rfl
  case root_fixed =>
    rw [hands.root]
    rintro (isLoose | isHeir)
    · exact linked.root_fixed isLoose
    · exact rootKnown.1 isHeir
  case nodup =>
    intro place
    by_cases isHeir : place.host? = some heir
    · rw [hands.inherited place isHeir]
      exact linked.nodup _
    · by_cases isSource : place.host? = some source
      · rw [hands.emptied place isSource]
        exact List.nodup_nil
      · rw [hands.kept place isHeir isSource]
        exact linked.nodup _
  case listed => exact hands.mem_entries linked
  case host_category =>
    intro id parent step
    rw [hands.parent] at step
    obtain ⟨original, originalStep, renamed⟩ := Option.map_eq_some_iff.1 step
    split at renamed
    · rw [hands.category, if_pos renamed.symm]
    · rw [← renamed]
      exact (hands.categoryOf_of_known
        (linked.host_category id original originalStep)).2
  case child_category =>
    intro id parent step
    rw [hands.parent] at step
    obtain ⟨original, originalStep, _⟩ := Option.map_eq_some_iff.1 step
    exact (linked.child_category id original originalStep).imp
      (fun known => (hands.categoryOf_of_known known).2)
      (fun known => (hands.categoryOf_of_known known).2)
  case loose_parent =>
    rintro id (isLoose | rfl)
    · rw [hands.parent, linked.loose_parent id isLoose]
      rfl
    · exact hands.parentOf_heir
  case loose_known =>
    rintro id (isLoose | rfl)
    · obtain ⟨category, known⟩ :=
        Option.isSome_iff_exists.1 (linked.loose_known id isLoose)
      rw [(hands.categoryOf_of_known known).2]
      rfl
    · rw [hands.category, if_pos rfl]
      rfl
  case rooted =>
    intro id category
    rw [hands.root]
    by_cases isHeir : id = heir
    · exact ⟨heir, isHeir ▸ .refl other id, Or.inr (Or.inr rfl)⟩
    · rw [hands.category, if_neg isHeir] at category
      obtain ⟨top, above, isTop⟩ := linked.rooted id category
      rcases hands.climbs above with onward | inherited
      · exact ⟨top, onward, isTop.imp_right Or.inl⟩
      · exact ⟨heir, inherited, Or.inr (Or.inr rfl)⟩

end HandsOver

end Scene
end MotionScene
