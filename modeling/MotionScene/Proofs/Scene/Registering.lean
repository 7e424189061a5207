import MotionScene.Proofs.Scene.Ownership

/-!
# Registering and erasing owners

Changes of a scene that leave links alone keep its owners where they belong.
New owners may be registered when they are linked among themselves only, and
owners may be erased together with everything beneath them once nothing outside
lists them.
-/

namespace MotionScene
namespace Scene

variable {scene other : Scene} {loose : Set OwnerId}

/-! ## Changes that leave links alone -/

/-- Two scenes with the same links. -/
structure SameLinks (scene other : Scene) : Prop where
  root : other.root = scene.root
  category : ∀ id, other.categoryOf id = scene.categoryOf id
  parent : ∀ id, other.parentOf id = scene.parentOf id
  entries : ∀ place, other.entries place = scene.entries place

theorem SameLinks.refl (scene : Scene) : scene.SameLinks scene :=
  ⟨rfl, fun _ => rfl, fun _ => rfl, fun _ => rfl⟩

theorem SameLinks.trans
    {third : Scene}
    (same : scene.SameLinks other)
    (onward : other.SameLinks third) :
    scene.SameLinks third :=
  ⟨onward.root.trans same.root,
    fun id => (onward.category id).trans (same.category id),
    fun id => (onward.parent id).trans (same.parent id),
    fun place => (onward.entries place).trans (same.entries place)⟩

/-- A change of an owner that is none of its kind and its links. -/
theorem sameLinks_modify
    (id : OwnerId)
    {change : Owner → Owner}
    (kind : ∀ owner, (change owner).kind = owner.kind)
    (parent : ∀ owner, (change owner).parent = owner.parent)
    (children : ∀ owner, (change owner).children = owner.children)
    (tags : ∀ owner, (change owner).tags = owner.tags) :
    scene.SameLinks (scene.modify id change) := by
  constructor
  · rfl
  · intro other
    rw [categoryOf, owner?_modify]
    split
    · next same =>
        simp only [← same, categoryOf, Option.map_map, Function.comp_def, kind]
    · rfl
  · intro other
    rw [parentOf, owner?_modify]
    split
    · next same =>
      subst same
      rw [Option.bind_map]
      exact congrArg (scene.owner? id).bind (funext parent)
    · rfl
  · intro place
    cases place with
    | children host =>
        rw [entries, owner?_modify]
        split
        · next same =>
            simp only [← same, entries, Option.map_map,
              Function.comp_def, children]
        · rfl
    | tags host =>
        rw [entries, owner?_modify]
        split
        · next same =>
            simp only [← same, entries, Option.map_map, Function.comp_def, tags]
        · rfl
    | styles | tools => rfl

/-- The same owners lie within each other in scenes with the same parents. -/
theorem climbs_congr (parents : ∀ id, other.parentOf id = scene.parentOf id) :
    other.Climbs = scene.Climbs := by
  funext id ancestor
  simp only [Climbs, parents]

theorem Linked.congr
    (linked : scene.Linked loose)
    (same : scene.SameLinks other) :
    other.Linked loose := by
  have homes : ∀ id, other.home? id = scene.home? id :=
    fun id => home?_congr (same.category id) (same.parent id)
  have climbs := climbs_congr same.parent
  constructor
  case root_category =>
    simpa only [same.root, same.category] using linked.root_category
  case root_parent =>
    simpa only [same.root, same.parent] using linked.root_parent
  case root_fixed => simpa only [same.root] using linked.root_fixed
  case nodup => simpa only [same.entries] using linked.nodup
  case listed => simpa only [same.entries, homes] using linked.listed
  case host_category =>
    simpa only [same.parent, same.category] using linked.host_category
  case child_category =>
    simpa only [same.parent, same.category] using linked.child_category
  case loose_parent => simpa only [same.parent] using linked.loose_parent
  case loose_known => simpa only [same.category] using linked.loose_known
  case rooted =>
    simpa only [same.root, same.category, climbs] using linked.rooted

/-! ## Registering -/

/-- A scene with new owners, which are linked among themselves only. -/
structure Grows (scene other : Scene) (fresh : Set OwnerId) : Prop where
  root : other.root = scene.root
  styles : other.styles = scene.styles
  tools : other.tools = scene.tools
  old : ∀ id ∉ fresh, other.owner? id = scene.owner? id
  absent : ∀ id ∈ fresh, scene.owner? id = none
  known : ∀ id ∈ fresh, (other.categoryOf id).isSome
  parent_fresh : ∀ id ∈ fresh, ∀ parent, other.parentOf id = some parent →
    parent ∈ fresh ∧ other.categoryOf parent = some .object ∧
      (other.categoryOf id = some .object ∨ other.categoryOf id = some .tag)
  nodup : ∀ place host, place.host? = some host → host ∈ fresh →
    (other.entries place).Nodup
  listed : ∀ place host, place.host? = some host → host ∈ fresh →
    ∀ id, id ∈ other.entries place ↔ id ∈ fresh ∧ other.home? id = some place
  rooted : ∀ id ∈ fresh, ∃ top ∈ fresh,
    other.Climbs id top ∧ other.parentOf top = none

namespace Grows

variable {fresh : Set OwnerId}

theorem parentOf_old
    (grows : scene.Grows other fresh)
    {id : OwnerId}
    (isOld : id ∉ fresh) :
    other.parentOf id = scene.parentOf id := by
  simp only [parentOf, grows.old id isOld]

theorem categoryOf_old
    (grows : scene.Grows other fresh)
    {id : OwnerId}
    (isOld : id ∉ fresh) :
    other.categoryOf id = scene.categoryOf id := by
  simp only [categoryOf, grows.old id isOld]

/-- The lists that do not belong to a new owner are the old ones. -/
theorem entries_old
    (grows : scene.Grows other fresh)
    {place : Place}
    (isOld : ∀ host, place.host? = some host → host ∉ fresh) :
    other.entries place = scene.entries place := by
  cases place with
  | children host | tags host =>
      simp only [entries, grows.old host (isOld host rfl)]
  | styles => exact grows.styles
  | tools => exact grows.tools

theorem isOld_of_known
    (grows : scene.Grows other fresh)
    {id : OwnerId}
    (known : (scene.categoryOf id).isSome) :
    id ∉ fresh := by
  intro isFresh
  rw [categoryOf, grows.absent id isFresh] at known
  cases known

theorem parentOf_of_old
    (grows : scene.Grows other fresh)
    {id parent : OwnerId}
    (step : scene.parentOf id = some parent) :
    other.parentOf id = some parent := by
  have known := contains_of_parentOf step
  rw [contains_eq_categoryOf] at known
  rw [grows.parentOf_old (grows.isOld_of_known known)]
  exact step

theorem root_old
    (grows : scene.Grows other fresh)
    (linked : scene.Linked loose) :
    scene.root ∉ fresh := by
  apply grows.isOld_of_known
  rw [linked.root_category]
  rfl

theorem loose_old
    (grows : scene.Grows other fresh)
    (linked : scene.Linked loose)
    {id : OwnerId}
    (isLoose : id ∈ loose) :
    id ∉ fresh :=
  grows.isOld_of_known (linked.loose_known id isLoose)

theorem parent_old
    (grows : scene.Grows other fresh)
    (linked : scene.Linked loose)
    {id parent : OwnerId}
    (step : scene.parentOf id = some parent) :
    parent ∉ fresh := by
  apply grows.isOld_of_known
  rw [linked.host_category id parent step]
  rfl

/-- The lists of a new owner hold what belongs there; nothing of it is loose. -/
theorem mem_entries_new
    (grows : scene.Grows other fresh)
    (linked : scene.Linked loose)
    {place : Place}
    {host : OwnerId}
    (belongs : place.host? = some host)
    (isFresh : host ∈ fresh)
    (id : OwnerId) :
    id ∈ other.entries place ↔ other.home? id = some place ∧
      id ∉ loose ∪ {id | id ∈ fresh ∧ other.parentOf id = none} := by
  rw [grows.listed place host belongs isFresh]
  constructor
  · rintro ⟨idFresh, home⟩
    refine ⟨home, ?_⟩
    rintro (isLoose | ⟨_, parentless⟩)
    · exact grows.loose_old linked isLoose idFresh
    · rw [((other.home?_eq_some_iff).1 home).2 host belongs] at parentless
      cases parentless
  · rintro ⟨home, _⟩
    refine ⟨?_, home⟩
    by_contra isOld
    have step := ((other.home?_eq_some_iff).1 home).2 host belongs
    rw [grows.parentOf_old isOld] at step
    exact grows.parent_old linked step isFresh

/-- The other lists hold what they did: a new owner has a parent among the new
ones, or none and is loose. -/
theorem mem_entries_old
    (grows : scene.Grows other fresh)
    (linked : scene.Linked loose)
    {place : Place}
    (hostOld : ∀ host, place.host? = some host → host ∉ fresh)
    (id : OwnerId) :
    id ∈ other.entries place ↔ other.home? id = some place ∧
      id ∉ loose ∪ {id | id ∈ fresh ∧ other.parentOf id = none} := by
  rw [grows.entries_old hostOld, linked.listed]
  by_cases idFresh : id ∈ fresh
  · have absent : scene.home? id = none := by
      simp [home?, categoryOf, grows.absent id idFresh]
    constructor
    · rintro ⟨home, _⟩
      rw [absent] at home
      cases home
    · rintro ⟨home, fixed⟩
      exfalso
      cases step : other.parentOf id with
      | none => exact fixed (Or.inr ⟨idFresh, step⟩)
      | some parent =>
          obtain ⟨parentFresh, _, sort⟩ :=
            grows.parent_fresh id idFresh parent step
          exact hostOld parent (other.host?_of_home? home step sort) parentFresh
  · rw [home?_congr (grows.categoryOf_old idFresh) (grows.parentOf_old idFresh)]
    simp [idFresh]

/-- The new owners without a parent are loose. -/
theorem linked
    (grows : scene.Grows other fresh)
    (linked : scene.Linked loose) :
    other.Linked (loose ∪ {id | id ∈ fresh ∧ other.parentOf id = none}) := by
  constructor
  case root_category =>
    rw [grows.root, grows.categoryOf_old (grows.root_old linked)]
    exact linked.root_category
  case root_parent =>
    rw [grows.root, grows.parentOf_old (grows.root_old linked)]
    exact linked.root_parent
  case root_fixed =>
    rw [grows.root]
    rintro (isLoose | ⟨isFresh, _⟩)
    · exact linked.root_fixed isLoose
    · exact grows.root_old linked isFresh
  case nodup =>
    intro place
    by_cases isNew : ∃ host, place.host? = some host ∧ host ∈ fresh
    · obtain ⟨host, belongs, isFresh⟩ := isNew
      exact grows.nodup place host belongs isFresh
    · rw [grows.entries_old fun host belongs isFresh =>
        isNew ⟨host, belongs, isFresh⟩]
      exact linked.nodup place
  case listed =>
    intro place id
    by_cases isNew : ∃ host, place.host? = some host ∧ host ∈ fresh
    · obtain ⟨host, belongs, isFresh⟩ := isNew
      exact grows.mem_entries_new linked belongs isFresh id
    · exact grows.mem_entries_old linked
        (fun host belongs isFresh => isNew ⟨host, belongs, isFresh⟩) id
  case host_category =>
    intro id parent step
    by_cases isFresh : id ∈ fresh
    · exact (grows.parent_fresh id isFresh parent step).2.1
    · rw [grows.parentOf_old isFresh] at step
      rw [grows.categoryOf_old (grows.parent_old linked step)]
      exact linked.host_category id parent step
  case child_category =>
    intro id parent step
    by_cases isFresh : id ∈ fresh
    · exact (grows.parent_fresh id isFresh parent step).2.2
    · rw [grows.parentOf_old isFresh] at step
      rw [grows.categoryOf_old isFresh]
      exact linked.child_category id parent step
  case loose_parent =>
    rintro id (isLoose | ⟨_, parentless⟩)
    · rw [grows.parentOf_old (grows.loose_old linked isLoose)]
      exact linked.loose_parent id isLoose
    · exact parentless
  case loose_known =>
    rintro id (isLoose | ⟨isFresh, _⟩)
    · rw [grows.categoryOf_old (grows.loose_old linked isLoose)]
      exact linked.loose_known id isLoose
    · exact grows.known id isFresh
  case rooted =>
    intro id category
    rw [grows.root]
    by_cases isFresh : id ∈ fresh
    · obtain ⟨top, topFresh, climbs, parentless⟩ := grows.rooted id isFresh
      exact ⟨top, climbs, Or.inr (Or.inr ⟨topFresh, parentless⟩)⟩
    · rw [grows.categoryOf_old isFresh] at category
      obtain ⟨top, climbs, isTop⟩ := linked.rooted id category
      exact ⟨top, climbs.mono fun _ _ => grows.parentOf_of_old,
        isTop.imp_right Or.inl⟩

end Grows

/-- A new owner without links is loose. -/
theorem Linked.insert
    (linked : scene.Linked loose)
    {owner : Owner}
    (absent : scene.owner? owner.id = none)
    (unlinked : owner.content = owner) :
    (scene.insert owner).Linked (loose ∪ {owner.id}) := by
  have parentless : (scene.insert owner).parentOf owner.id = none := by
    rw [parentOf_insert, if_pos rfl, ← unlinked]
    rfl
  have childless : ∀ place, place.host? = some owner.id →
      (scene.insert owner).entries place = [] := by
    intro place belongs
    rw [entries_insert]
    cases place with
    | children host | tags host =>
        cases belongs
        simp only [if_true]
        rw [← unlinked]
        rfl
    | styles | tools => cases belongs
  have grows : scene.Grows (scene.insert owner) {owner.id} := by
    constructor
    case root | styles | tools => rfl
    case old =>
      intro id isOld
      rw [owner?_insert, if_neg (Ne.symm isOld)]
    case absent =>
      rintro id rfl
      exact absent
    case known =>
      rintro id rfl
      rw [categoryOf_insert, if_pos rfl]
      rfl
    case parent_fresh =>
      rintro id rfl parent step
      rw [parentless] at step
      cases step
    case nodup =>
      rintro place host belongs rfl
      rw [childless place belongs]
      exact List.nodup_nil
    case listed =>
      rintro place host belongs rfl id
      rw [childless place belongs]
      simp only [List.not_mem_nil, false_iff]
      rintro ⟨rfl, home⟩
      have step :=
        ((scene.insert owner).home?_eq_some_iff.1 home).2 owner.id belongs
      rw [parentless] at step
      cases step
    case rooted =>
      rintro id rfl
      exact ⟨owner.id, rfl, Climbs.refl _ _, parentless⟩
  have result := grows.linked linked
  have same :
      {id | id ∈ ({owner.id} : Set OwnerId) ∧
        (scene.insert owner).parentOf id = none} =
      {owner.id} := by
    ext id
    simp only [Set.mem_ofPred_eq, Set.mem_singleton_iff, and_iff_left_iff_imp]
    rintro rfl
    exact parentless
  rwa [same] at result

/-- Registering owners one after the other leaves all other ones alone. -/
theorem owner?_foldl_insert_of_ne
    {owners : List Owner}
    {id : OwnerId}
    (differs : ∀ owner ∈ owners, owner.id ≠ id) :
    (owners.foldl Scene.insert scene).owner? id = scene.owner? id := by
  induction owners generalizing scene with
  | nil => rfl
  | cons first rest inductionHypothesis =>
      rw [List.foldl_cons, inductionHypothesis, owner?_insert]
      · exact if_neg (differs first List.mem_cons_self)
      · exact fun owner member =>
          differs owner (List.mem_cons_of_mem first member)

/-- Owners of different numbers can all be found once they are registered. -/
theorem owner?_foldl_insert_of_mem
    {owners : List Owner}
    (agree : ∀ a ∈ owners, ∀ b ∈ owners, a.id = b.id → a = b)
    {owner : Owner}
    (member : owner ∈ owners) :
    (owners.foldl Scene.insert scene).owner? owner.id = some owner := by
  induction owners generalizing scene with
  | nil => cases member
  | cons first rest inductionHypothesis =>
      rw [List.foldl_cons]
      by_cases later : owner ∈ rest
      · exact inductionHypothesis (fun a memberA b memberB =>
          agree a (List.mem_cons_of_mem first memberA) b
            (List.mem_cons_of_mem first memberB)) later
      · have isFirst : owner = first :=
          (List.mem_cons.1 member).resolve_right later
        rw [owner?_foldl_insert_of_ne, isFirst, owner?_insert, if_pos rfl]
        intro other isRest same
        exact later
          (agree other (List.mem_cons_of_mem first isRest) owner member
            same ▸ isRest)

/-- Owners of different numbers are all there is once they are registered in an
empty scene. -/
theorem owner?_foldl_insert_empty_iff
    {owners : List Owner}
    (agree : ∀ a ∈ owners, ∀ b ∈ owners, a.id = b.id → a = b)
    {id : OwnerId}
    {owner : Owner} :
    (owners.foldl Scene.insert .empty).owner? id = some owner ↔
      owner ∈ owners ∧ owner.id = id := by
  constructor
  · intro found
    by_cases known : ∃ other ∈ owners, other.id = id
    · obtain ⟨other, member, rfl⟩ := known
      rw [owner?_foldl_insert_of_mem agree member] at found
      obtain rfl := Option.some.inj found
      exact ⟨member, rfl⟩
    · rw [owner?_foldl_insert_of_ne (by simpa using known)] at found
      simp [owner?, empty, Registry.get?, Registry.empty] at found
  · rintro ⟨member, rfl⟩
    exact owner?_foldl_insert_of_mem agree member

theorem foldl_insert_eq (scene : Scene) (owners : List Owner) :
    owners.foldl Scene.insert scene =
      { scene with owners := (owners.foldl Scene.insert scene).owners } := by
  induction owners generalizing scene with
  | nil => rfl
  | cons first rest inductionHypothesis =>
      rw [List.foldl_cons, inductionHypothesis]
      rfl

/-! ## Erasing -/

/-- A scene without some owners. -/
structure Erases (scene other : Scene) (gone : Set OwnerId) : Prop where
  root : other.root = scene.root
  styles : other.styles = scene.styles
  tools : other.tools = scene.tools
  kept : ∀ id ∉ gone, other.owner? id = scene.owner? id
  lost : ∀ id ∈ gone, other.owner? id = none

namespace Erases

variable {gone : Set OwnerId}

theorem parentOf_kept
    (erases : scene.Erases other gone)
    {id : OwnerId}
    (isKept : id ∉ gone) :
    other.parentOf id = scene.parentOf id := by
  simp only [parentOf, erases.kept id isKept]

theorem categoryOf_kept
    (erases : scene.Erases other gone)
    {id : OwnerId}
    (isKept : id ∉ gone) :
    other.categoryOf id = scene.categoryOf id := by
  simp only [categoryOf, erases.kept id isKept]

theorem isKept_of_known
    (erases : scene.Erases other gone)
    {id : OwnerId}
    {category : Category}
    (known : other.categoryOf id = some category) :
    id ∉ gone := by
  intro isGone
  rw [categoryOf, erases.lost id isGone] at known
  cases known

theorem entries_kept
    (erases : scene.Erases other gone)
    {place : Place}
    (isKept : ∀ host, place.host? = some host → host ∉ gone) :
    other.entries place = scene.entries place := by
  cases place with
  | children host | tags host =>
      simp only [entries, erases.kept host (isKept host rfl)]
  | styles => exact erases.styles
  | tools => exact erases.tools

theorem entries_lost
    (erases : scene.Erases other gone)
    {place : Place}
    {host : OwnerId}
    (belongs : place.host? = some host)
    (isGone : host ∈ gone) :
    other.entries place = [] := by
  cases place with
  | children parent | tags parent =>
      cases belongs
      simp [entries, erases.lost host isGone]
  | styles | tools => cases belongs

theorem isKept_of_parentOf
    (erases : scene.Erases other gone)
    {id parent : OwnerId}
    (step : other.parentOf id = some parent) :
    id ∉ gone := by
  intro isGone
  rw [parentOf, erases.lost id isGone] at step
  cases step

/-- What is listed under an owner that stays, stays. -/
theorem entry_kept
    (linked : scene.Linked loose)
    (whole : ∀ id parent, scene.parentOf id = some parent →
      (id ∈ gone ↔ parent ∈ gone))
    (tops : ∀ id, scene.parentOf id = none → (id ∈ gone ↔ id ∈ loose))
    {place : Place}
    {id : OwnerId}
    (hostKept : ∀ host, place.host? = some host → host ∉ gone)
    (home : scene.home? id = some place)
    (fixed : id ∉ loose) :
    id ∉ gone := by
  intro isGone
  cases step : scene.parentOf id with
  | none => exact fixed ((tops id step).1 isGone)
  | some parent =>
      have belongs :=
        scene.host?_of_home? home step (linked.child_category id parent step)
      exact hostKept parent belongs ((whole id parent step).1 isGone)

/-- Climbing from an owner that stays passes only such owners. -/
theorem climbs_kept
    (erases : scene.Erases other gone)
    (whole : ∀ id parent, scene.parentOf id = some parent →
      (id ∈ gone ↔ parent ∈ gone))
    {id top : OwnerId}
    (isKept : id ∉ gone)
    (climbs : scene.Climbs id top) :
    other.Climbs id top ∧ top ∉ gone := by
  induction climbs using Relation.ReflTransGen.head_induction_on with
  | refl => exact ⟨Climbs.refl other top, isKept⟩
  | @head id parent step _ inductionHypothesis =>
      obtain ⟨onward, topKept⟩ :=
        inductionHypothesis (mt (whole id parent step).2 isKept)
      exact ⟨Climbs.head ((erases.parentOf_kept isKept).trans step)
        onward, topKept⟩

theorem mem_entries
    (erases : scene.Erases other gone)
    (linked : scene.Linked loose)
    (whole : ∀ id parent, scene.parentOf id = some parent →
      (id ∈ gone ↔ parent ∈ gone))
    (tops : ∀ id, scene.parentOf id = none → (id ∈ gone ↔ id ∈ loose))
    (place : Place)
    (id : OwnerId) :
    id ∈ other.entries place ↔ other.home? id = some place := by
  by_cases isGone : ∃ host, place.host? = some host ∧ host ∈ gone
  · obtain ⟨host, belongs, hostGone⟩ := isGone
    rw [erases.entries_lost belongs hostGone]
    simp only [List.not_mem_nil, false_iff]
    intro home
    obtain ⟨category, parents⟩ := other.home?_eq_some_iff.1 home
    have isKept := erases.isKept_of_known category
    have step := parents host belongs
    rw [erases.parentOf_kept isKept] at step
    exact isKept ((whole id host step).2 hostGone)
  · have hostKept : ∀ host, place.host? = some host → host ∉ gone :=
      fun host belongs hostGone => isGone ⟨host, belongs, hostGone⟩
    rw [erases.entries_kept hostKept, linked.listed]
    constructor
    · rintro ⟨home, fixed⟩
      have isKept := entry_kept linked whole tops hostKept home fixed
      rw [home?_congr (erases.categoryOf_kept isKept)
        (erases.parentOf_kept isKept)]
      exact home
    · intro home
      have isKept := erases.isKept_of_known (other.home?_eq_some_iff.1 home).1
      rw [home?_congr (erases.categoryOf_kept isKept)
        (erases.parentOf_kept isKept)] at home
      refine ⟨home, ?_⟩
      intro isLoose
      exact isKept ((tops id (linked.loose_parent id isLoose)).2 isLoose)

/-- Loose owners may be erased together with exactly what lies beneath them. -/
theorem linked
    (erases : scene.Erases other gone)
    (linked : scene.Linked loose)
    (whole : ∀ id parent, scene.parentOf id = some parent →
      (id ∈ gone ↔ parent ∈ gone))
    (tops : ∀ id, scene.parentOf id = none → (id ∈ gone ↔ id ∈ loose)) :
    other.Linked ∅ := by
  have rootKept : scene.root ∉ gone :=
    fun isGone => linked.root_fixed ((tops _ linked.root_parent).1 isGone)
  constructor
  case root_category =>
    rw [erases.root, erases.categoryOf_kept rootKept]
    exact linked.root_category
  case root_parent =>
    rw [erases.root, erases.parentOf_kept rootKept]
    exact linked.root_parent
  case root_fixed => exact Set.notMem_empty _
  case nodup =>
    intro place
    by_cases isGone : ∃ host, place.host? = some host ∧ host ∈ gone
    · obtain ⟨host, belongs, hostGone⟩ := isGone
      rw [erases.entries_lost belongs hostGone]
      exact List.nodup_nil
    · rw [erases.entries_kept fun host belongs hostGone =>
        isGone ⟨host, belongs, hostGone⟩]
      exact linked.nodup place
  case listed =>
    intro place id
    rw [erases.mem_entries linked whole tops]
    simp only [Set.mem_empty_iff_false, not_false_eq_true, and_true]
  case host_category =>
    intro id parent step
    have isKept := erases.isKept_of_parentOf step
    rw [erases.parentOf_kept isKept] at step
    rw [erases.categoryOf_kept (mt (whole id parent step).2 isKept)]
    exact linked.host_category id parent step
  case child_category =>
    intro id parent step
    have isKept := erases.isKept_of_parentOf step
    rw [erases.parentOf_kept isKept] at step
    rw [erases.categoryOf_kept isKept]
    exact linked.child_category id parent step
  case loose_parent =>
    exact fun id isLoose => absurd isLoose (Set.notMem_empty id)
  case loose_known =>
    exact fun id isLoose => absurd isLoose (Set.notMem_empty id)
  case rooted =>
    intro id category
    have isKept : id ∉ gone := by
      rcases category with category | category <;>
        exact erases.isKept_of_known category
    rw [erases.categoryOf_kept isKept] at category
    obtain ⟨top, climbs, isTop⟩ := linked.rooted id category
    obtain ⟨upward, topKept⟩ := erases.climbs_kept whole isKept climbs
    rw [erases.root]
    refine ⟨top, upward, Or.inl ?_⟩
    rcases isTop with same | isLoose
    · exact same
    · exact absurd
        ((tops top (linked.loose_parent top isLoose)).2 isLoose) topKept

end Erases

/-- Erasing owners one after the other erases them all. -/
theorem owner?_foldl_erase (scene : Scene) (ids : List OwnerId) (id : OwnerId) :
    (ids.foldl erase scene).owner? id =
      if id ∈ ids then none else scene.owner? id := by
  induction ids generalizing scene with
  | nil => simp
  | cons first rest inductionHypothesis =>
      rw [List.foldl_cons, inductionHypothesis, owner?_erase]
      by_cases same : first = id
      · simp [same]
      · simp [same, Ne.symm same]

theorem foldl_erase_eq (scene : Scene) (ids : List OwnerId) :
    ids.foldl erase scene =
      { scene with owners := (ids.foldl erase scene).owners } := by
  induction ids generalizing scene with
  | nil => rfl
  | cons first rest inductionHypothesis =>
      rw [List.foldl_cons, inductionHypothesis]
      rfl

end Scene
end MotionScene
