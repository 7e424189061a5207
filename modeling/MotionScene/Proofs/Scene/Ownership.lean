import Mathlib.Order.BooleanAlgebra.Set
import MotionScene.Proofs.Attempt
import MotionScene.Proofs.Scene.Climbing

/-!
# Ownership

In a well-kept scene every owner stands exactly once in the one place where it
belongs, and every object and tag lies beneath the root.  While a scene is being
changed some owners may be loose: they are registered, but listed nowhere, and
objects and tags may lie beneath them instead.  Detaching an owner makes it
loose, attaching it ends that, and each of the two takes the other back.
-/

namespace MotionScene
namespace Scene

/-! ## Lists with an entry put in -/

theorem mem_insertAt {ids : List OwnerId} {index : Nat} {id other : OwnerId} :
    other ∈ insertAt ids index id ↔ other = id ∨ other ∈ ids :=
  List.mem_insertIdx (Nat.min_le_right _ _)

theorem nodup_insertAt
    {ids : List OwnerId}
    (nodup : ids.Nodup)
    {id : OwnerId}
    (fresh : id ∉ ids)
    (index : Nat) :
    (insertAt ids index id).Nodup := by
  have permutation :=
    List.perm_insertIdx id ids (Nat.min_le_right index ids.length)
  exact permutation.nodup_iff.2 (List.nodup_cons.2 ⟨fresh, nodup⟩)

theorem idxOf?_insertAt
    {ids : List OwnerId}
    {id : OwnerId}
    (fresh : id ∉ ids)
    (index : Nat) :
    (insertAt ids index id).idxOf? id = some (Nat.min index ids.length) := by
  have bound : Nat.min index ids.length ≤ ids.length := Nat.min_le_right _ _
  rw [insertAt, List.idxOf?_eq_some_iff]
  refine ⟨?_, List.getElem_insertIdx_self _, ?_⟩
  · rw [List.length_insertIdx_of_le_length bound]
    omega
  · intro position before same
    rw [List.getElem_insertIdx_of_lt before] at same
    exact fresh (same ▸ List.getElem_mem _)

theorem eraseIdx_insertAt (ids : List OwnerId) (index : Nat) (id : OwnerId) :
    (insertAt ids index id).eraseIdx (Nat.min index ids.length) = ids :=
  List.eraseIdx_insertIdx_self id

theorem insertAt_eraseIdx
    {ids : List OwnerId}
    {id : OwnerId}
    {index : Nat}
    (found : ids.idxOf? id = some index) :
    insertAt (ids.eraseIdx index) index id = ids := by
  obtain ⟨bound, same, _⟩ := List.idxOf?_eq_some_iff.1 found
  have position : Nat.min index (ids.eraseIdx index).length = index := by
    rw [List.length_eraseIdx, if_pos bound]
    exact Nat.min_eq_left (by omega)
  rw [insertAt, position, ← same]
  exact List.insertIdx_eraseIdx_getElem bound

theorem insertAt_nil (index : Nat) (id : OwnerId) :
    insertAt [] index id = [id] := by
  simp [insertAt]

theorem insertAt_cons
    (head : OwnerId)
    (rest : List OwnerId)
    (index : Nat)
    (id : OwnerId) :
    insertAt (head :: rest) (index + 1) id =
      head :: insertAt rest index id := by
  simp [insertAt]

/-- Entries that are put in one after the other, each at the next position,
stand next to each other. -/
theorem insertAt_then
    (ids : List OwnerId)
    (index : Nat)
    (id : OwnerId)
    (next : List OwnerId) :
    (insertAt ids index id).take (index + 1) ++ next ++
      (insertAt ids index id).drop (index + 1) =
      ids.take index ++ id :: next ++ ids.drop index := by
  induction ids generalizing index with
  | nil => simp [insertAt_nil]
  | cons head rest inductionHypothesis =>
      cases index with
      | zero => simp [insertAt]
      | succ index =>
          rw [insertAt_cons]
          simpa using inductionHypothesis index

/-- Without repetition, taking out the position of an entry takes out that entry
alone. -/
theorem eraseIdx_of_idxOf?
    {ids : List OwnerId}
    (nodup : ids.Nodup)
    {id : OwnerId}
    {index : Nat}
    (found : ids.idxOf? id = some index) :
    ids.eraseIdx index = ids.filter fun other => other ≠ id := by
  have position : ids.idxOf id = index := by
    rw [List.idxOf_eq_getD_idxOf?, found]
    rfl
  rw [← position, List.eraseIdx_idxOf_eq_erase, nodup.erase_eq_filter]
  refine List.filter_congr fun other _ => ?_
  by_cases same : other = id <;> simp [same]

/-! ## Taking an owner out of a slot and putting it into one -/

variable {scene : Scene} {loose : Set OwnerId}

/-- The scene with an owner taken out of a slot. -/
def released (scene : Scene) (id : OwnerId) (slot : Slot) : Scene :=
  (scene.editEntries slot.place fun ids =>
    ids.eraseIdx slot.index).setParent id none

/-- The scene with an owner put into a slot. -/
def hung (scene : Scene) (id : OwnerId) (slot : Slot) : Scene :=
  (scene.editEntries slot.place fun ids => insertAt ids slot.index id).setParent
    id slot.host?

theorem detach_eq_ok_iff {id : OwnerId} {detached : Scene} {slot : Slot} :
    scene.detach id = .ok (detached, slot) ↔
      scene.slotOf id = some slot ∧ detached = scene.released id slot := by
  unfold detach
  cases scene.slotOf id with
  | none => simp
  | some found =>
      simp only [Except.ok.injEq, Prod.mk.injEq, Option.some.injEq, eraseAt_eq]
      constructor
      · rintro ⟨rfl, rfl⟩
        exact ⟨rfl, rfl⟩
      · rintro ⟨rfl, rfl⟩
        exact ⟨rfl, rfl⟩

theorem slotOf_eq_some_iff {id : OwnerId} {slot : Slot} :
    scene.slotOf id = some slot ↔
      scene.home? id = some slot.place ∧
        (scene.entries slot.place).idxOf? id = some slot.index := by
  rw [slotOf_eq]
  simp only [Option.bind_eq_some_iff, Option.map_eq_some_iff]
  constructor
  · rintro ⟨place, home, index, found, rfl⟩
    simpa using ⟨home, found⟩
  · rintro ⟨home, found⟩
    exact ⟨slot.place, home, slot.index, found, slot.slot_place_index⟩

/-- An owner may be attached at a slot for owners of its category, whose host is
an object and, for a child, does not lie within the owner. -/
theorem checkAttach_eq_ok_iff {id : OwnerId} {slot : Slot} :
    scene.checkAttach id slot = .ok () ↔
      scene.categoryOf id = some slot.place.category ∧
        (∀ host, slot.host? = some host →
          scene.categoryOf host = some .object) ∧
        ∀ parent index, slot = .child parent index →
          scene.isWithin parent id = false := by
  unfold checkAttach owner categoryOf
  cases found : scene.owner? id with
  | none => simp
  | some owner =>
      cases slot with
      | child parent index =>
          cases host : scene.owner? parent with
          | none =>
              cases sort : owner.kind.isObject <;> simp_all [Slot.host?]
          | some other =>
              cases sort : owner.kind.isObject <;>
                cases otherSort : other.kind.isObject <;>
                cases within : scene.isWithin parent id <;>
                simp_all [Slot.place, Place.category, Slot.host?,
                  OwnerKind.isObject]
      | tag object index =>
          cases host : scene.owner? object with
          | none =>
              cases sort : owner.kind.isTag <;> simp_all [Slot.host?]
          | some other =>
              cases sort : owner.kind.isTag <;>
                cases otherSort : other.kind.isObject <;>
                simp_all [Slot.place, Place.category, Slot.host?,
                  OwnerKind.isObject, OwnerKind.isTag]
      | style index =>
          by_cases sort : owner.kind.category = .style <;>
            simp_all [Slot.place, Place.category, Slot.host?]
      | tool index =>
          by_cases sort : owner.kind.category = .tool <;>
            simp_all [Slot.place, Place.category, Slot.host?]

theorem attach_eq_ok_iff {id : OwnerId} {slot : Slot} {attached : Scene} :
    scene.attach id slot = .ok attached ↔
      scene.checkAttach id slot = .ok () ∧ attached = scene.hung id slot := by
  unfold attach
  rw [Attempt.bind_eq_ok_iff]
  simp only [Attempt.pure_eq_ok, Except.ok.injEq, insertInto_eq]
  constructor
  · rintro ⟨_, check, rfl⟩
    exact ⟨check, rfl⟩
  · rintro ⟨check, rfl⟩
    exact ⟨(), check, rfl⟩

/-! ## Scenes whose owners stand where they belong -/

/-- Every owner stands once in the place where it belongs, except those that are
loose, and every object and tag lies beneath the root or a loose owner. -/
structure Linked (scene : Scene) (loose : Set OwnerId) : Prop where
  root_category : scene.categoryOf scene.root = some .object
  root_parent : scene.parentOf scene.root = none
  root_fixed : scene.root ∉ loose
  nodup : ∀ place, (scene.entries place).Nodup
  listed : ∀ place id, id ∈ scene.entries place ↔
    scene.home? id = some place ∧ id ∉ loose
  host_category : ∀ id parent, scene.parentOf id = some parent →
    scene.categoryOf parent = some .object
  child_category : ∀ id parent, scene.parentOf id = some parent →
    scene.categoryOf id = some .object ∨ scene.categoryOf id = some .tag
  loose_parent : ∀ id ∈ loose, scene.parentOf id = none
  loose_known : ∀ id ∈ loose, (scene.categoryOf id).isSome
  rooted : ∀ id, scene.categoryOf id = some .object ∨
    scene.categoryOf id = some .tag →
    ∃ top, scene.Climbs id top ∧ (top = scene.root ∨ top ∈ loose)

namespace Linked

theorem top_parent
    (linked : scene.Linked loose)
    {top : OwnerId}
    (isTop : top = scene.root ∨ top ∈ loose) :
    scene.parentOf top = none := by
  rcases isTop with rfl | member
  · exact linked.root_parent
  · exact linked.loose_parent top member

/-- Climbing comes to an end, so it makes no circle. -/
theorem acyclic (linked : scene.Linked loose) : scene.Acyclic := by
  refine acyclic_of_ends fun id parent step => ?_
  obtain ⟨top, above, isTop⟩ :=
    linked.rooted id (linked.child_category id parent step)
  exact ⟨top, above, linked.top_parent isTop⟩

/-- An owner that is not loose is listed where it belongs. -/
theorem mem_home
    (linked : scene.Linked loose)
    {id : OwnerId}
    {place : Place}
    (home : scene.home? id = some place)
    (fixed : id ∉ loose) :
    id ∈ scene.entries place :=
  (linked.listed place id).2 ⟨home, fixed⟩

/-- Every owner but the root and the loose ones belongs to a place. -/
theorem exists_home
    (linked : scene.Linked loose)
    {id : OwnerId}
    (known : scene.contains id = true)
    (differs : id ≠ scene.root)
    (fixed : id ∉ loose) :
    ∃ place, scene.home? id = some place := by
  rw [contains_eq_categoryOf] at known
  obtain ⟨category, isCategory⟩ := Option.isSome_iff_exists.1 known
  -- Objects and tags belong to their parent; only the root and loose ones among
  -- them have none.
  have above : category = .object ∨ category = .tag →
      ∃ parent, scene.parentOf id = some parent := by
    intro sort
    obtain ⟨top, climbs, isTop⟩ :=
      linked.rooted id (isCategory ▸ sort.imp (congrArg some) (congrArg some))
    rcases climbs.cases_head with rfl | ⟨parent, step, _⟩
    · exact absurd isTop (not_or.2 ⟨differs, fixed⟩)
    · exact ⟨parent, step⟩
  cases category with
  | object =>
      obtain ⟨parent, step⟩ := above (Or.inl rfl)
      exact ⟨.children parent, by simp [home?, isCategory, step]⟩
  | tag =>
      obtain ⟨parent, step⟩ := above (Or.inr rfl)
      exact ⟨.tags parent, by simp [home?, isCategory, step]⟩
  | style => exact ⟨.styles, by simp [home?, isCategory]⟩
  | tool => exact ⟨.tools, by simp [home?, isCategory]⟩

/-- So it stands in a slot. -/
theorem exists_slotOf
    (linked : scene.Linked loose)
    {id : OwnerId}
    (known : scene.contains id = true)
    (differs : id ≠ scene.root)
    (fixed : id ∉ loose) :
    ∃ slot, scene.slotOf id = some slot := by
  obtain ⟨place, home⟩ := linked.exists_home known differs fixed
  obtain ⟨index, position⟩ :=
    Option.isSome_iff_exists.1
      (List.isSome_idxOf?.2 (linked.mem_home home fixed))
  exact ⟨place.slot index,
    slotOf_eq_some_iff.2 (by simpa using ⟨home, position⟩)⟩

/-- The root belongs to no place. -/
theorem home?_root (linked : scene.Linked loose) :
    scene.home? scene.root = none := by
  unfold home?
  rw [linked.root_category, linked.root_parent]
  rfl

/-- A place with an entry belongs to an object. -/
theorem host_of_mem
    (linked : scene.Linked loose)
    {place : Place}
    {id host : OwnerId}
    (member : id ∈ scene.entries place)
    (belongs : place.host? = some host) :
    scene.parentOf id = some host ∧ scene.categoryOf host = some .object := by
  obtain ⟨home, _⟩ := (linked.listed place id).1 member
  have parent := ((scene.home?_eq_some_iff).1 home).2 host belongs
  exact ⟨parent, linked.host_category id host parent⟩

/-- A place with an entry belongs to an existing object, if to any. -/
theorem offers_of_mem
    (linked : scene.Linked loose)
    {place : Place}
    {id : OwnerId}
    (member : id ∈ scene.entries place) :
    scene.Offers place := by
  intro host belongs
  rw [(linked.host_of_mem member belongs).2]
  rfl

end Linked

/-- Where an owner belongs depends on its category and its parent alone. -/
theorem home?_congr
    {other : Scene}
    {id : OwnerId}
    (category : other.categoryOf id = scene.categoryOf id)
    (parent : other.parentOf id = scene.parentOf id) :
    other.home? id = scene.home? id := by
  unfold home?
  rw [category, parent]

/-! ### Detaching -/

section Released

variable {id : OwnerId} {slot : Slot}

@[simp] theorem root_released : (scene.released id slot).root = scene.root := by
  simp [released]

@[simp] theorem selection_released :
    (scene.released id slot).selection = scene.selection := by
  simp [released]

@[simp] theorem content?_released (other : OwnerId) :
    (scene.released id slot).content? other = scene.content? other := by
  simp [released]

@[simp] theorem categoryOf_released (other : OwnerId) :
    (scene.released id slot).categoryOf other = scene.categoryOf other := by
  simp [released]

theorem parentOf_released (other : OwnerId) :
    (scene.released id slot).parentOf other =
      if id = other then none else scene.parentOf other := by
  rw [released, parentOf_setParent, categoryOf_editEntries,
    parentOf_editEntries]
  simp

theorem entries_released (offers : scene.Offers slot.place) (place : Place) :
    (scene.released id slot).entries place =
      if slot.place = place then (scene.entries place).eraseIdx slot.index
      else scene.entries place := by
  rw [released, entries_setParent, entries_editEntries scene offers]
  split
  · next same => rw [same]
  · rfl

namespace Linked

/-- Detaching an owner takes it out of every place. -/
theorem entries_released
    (linked : scene.Linked loose)
    (found : scene.slotOf id = some slot)
    (place : Place) :
    (scene.released id slot).entries place =
      (scene.entries place).filter fun other => other ≠ id := by
  obtain ⟨home, position⟩ := slotOf_eq_some_iff.1 found
  have member : id ∈ scene.entries slot.place :=
    List.isSome_idxOf?.1 (by rw [position]; rfl)
  rw [Scene.entries_released (linked.offers_of_mem member)]
  split
  · next same =>
    subst same
    exact eraseIdx_of_idxOf? (linked.nodup _) position
  · next differs =>
    refine (List.filter_eq_self.2 fun other listed => ?_).symm
    rw [decide_eq_true_eq]
    rintro rfl
    have elsewhere := ((linked.listed place other).1 listed).1
    rw [home] at elsewhere
    exact differs (Option.some.inj elsewhere)

theorem mem_entries_released
    (linked : scene.Linked loose)
    (found : scene.slotOf id = some slot)
    {place : Place}
    {other : OwnerId} :
    other ∈ (scene.released id slot).entries place ↔
      other ≠ id ∧ other ∈ scene.entries place := by
  rw [linked.entries_released found, List.mem_filter,
    decide_eq_true_eq, and_comm]

/-- Detaching an owner makes it loose. -/
theorem released
    (linked : scene.Linked loose)
    (found : scene.slotOf id = some slot) :
    (scene.released id slot).Linked (loose ∪ {id}) := by
  obtain ⟨home, _⟩ := slotOf_eq_some_iff.1 found
  have notRoot : scene.root ≠ id := by
    rintro rfl
    rw [linked.home?_root] at home
    cases home
  have parents : ∀ other, other ≠ id →
      (scene.released id slot).parentOf other = scene.parentOf other := by
    intro other differs
    rw [parentOf_released, if_neg differs.symm]
  have fewer : ∀ other parent,
      (scene.released id slot).parentOf other = some parent →
      scene.parentOf other = some parent := by
    intro other parent step
    rw [parentOf_released] at step
    split at step
    · cases step
    · exact step
  constructor
  case root_category => simpa using linked.root_category
  case root_parent =>
    rw [root_released, parents _ notRoot]
    exact linked.root_parent
  case root_fixed =>
    rw [root_released, Set.mem_union, Set.mem_singleton_iff]
    rintro (isLoose | same)
    · exact linked.root_fixed isLoose
    · exact notRoot same
  case nodup =>
    intro place
    rw [linked.entries_released found]
    exact (linked.nodup place).filter _
  case listed =>
    intro place other
    rw [linked.mem_entries_released found, Set.mem_union, Set.mem_singleton_iff,
      linked.listed]
    by_cases same : other = id
    · simp [same]
    · rw [home?_congr (categoryOf_released other) (parents other same)]
      simp [same]
  case host_category =>
    intro other parent step
    rw [categoryOf_released]
    exact linked.host_category other parent (fewer other parent step)
  case child_category =>
    intro other parent step
    rw [categoryOf_released]
    exact linked.child_category other parent (fewer other parent step)
  case loose_parent =>
    intro other isLoose
    rw [parentOf_released]
    split
    · rfl
    · next differs =>
      rcases isLoose with isLoose | same
      · exact linked.loose_parent other isLoose
      · exact absurd same.symm differs
  case loose_known =>
    intro other isLoose
    rw [categoryOf_released]
    rcases isLoose with isLoose | same
    · exact linked.loose_known other isLoose
    · rw [same, ((scene.home?_eq_some_iff).1 home).1]
      rfl
  case rooted =>
    intro other category
    simp only [categoryOf_released, root_released] at category ⊢
    -- A climb that passes the detached owner now ends there.
    by_cases passes : scene.Climbs other id
    · exact ⟨id, passes.until_moved parents,
        Or.inr (Set.mem_union_right loose rfl)⟩
    · obtain ⟨top, above, isTop⟩ := linked.rooted other category
      refine ⟨top, above.avoiding parents passes, ?_⟩
      exact isTop.imp_right (Set.mem_union_left {id})

end Linked

end Released

/-! ### Attaching -/

section Hung

variable {id : OwnerId} {slot : Slot}

@[simp] theorem root_hung : (scene.hung id slot).root = scene.root := by
  simp [hung]

@[simp] theorem selection_hung :
    (scene.hung id slot).selection = scene.selection := by
  simp [hung]

@[simp] theorem content?_hung (other : OwnerId) :
    (scene.hung id slot).content? other = scene.content? other := by
  simp [hung]

@[simp] theorem categoryOf_hung (other : OwnerId) :
    (scene.hung id slot).categoryOf other = scene.categoryOf other := by
  simp [hung]

theorem parentOf_hung (known : (scene.categoryOf id).isSome) (other : OwnerId) :
    (scene.hung id slot).parentOf other =
      if id = other then slot.host? else scene.parentOf other := by
  obtain ⟨category, found⟩ := Option.isSome_iff_exists.1 known
  rw [hung, parentOf_setParent, categoryOf_editEntries,
    parentOf_editEntries, found]
  rfl

theorem entries_hung (offers : scene.Offers slot.place) (place : Place) :
    (scene.hung id slot).entries place =
      if slot.place = place then insertAt (scene.entries place) slot.index id
      else scene.entries place := by
  rw [hung, entries_setParent, entries_editEntries scene offers]
  split
  · next same => rw [same]
  · rfl

theorem offers_of_check (check : scene.checkAttach id slot = .ok ()) :
    scene.Offers slot.place := by
  intro host belongs
  rw [Slot.host?_place] at belongs
  rw [(checkAttach_eq_ok_iff.1 check).2.1 host belongs]
  rfl

theorem known_of_check (check : scene.checkAttach id slot = .ok ()) :
    (scene.categoryOf id).isSome := by
  rw [(checkAttach_eq_ok_iff.1 check).1]
  rfl

namespace Linked

/-- The host of a slot that an owner may be attached at does not lie within that
owner. -/
theorem not_climbs_host
    (linked : scene.Linked loose)
    (check : scene.checkAttach id slot = .ok ())
    {host : OwnerId}
    (belongs : slot.host? = some host) :
    ¬ scene.Climbs host id := by
  obtain ⟨category, hosts, within⟩ := checkAttach_eq_ok_iff.1 check
  intro climbs
  cases slot with
  | child parent index =>
      cases belongs
      have found := (isWithin_iff linked.acyclic).2 climbs
      rw [within host index rfl] at found
      cases found
  | tag object index =>
      -- Nothing lies within a tag but itself.
      have isObject : scene.categoryOf id = some .object := by
        rcases climbs.cases_tail with same | ⟨child, _, step⟩
        · rw [same]
          exact hosts host belongs
        · exact linked.host_category child id step
      rw [isObject] at category
      cases category
  | style index => cases belongs
  | tool index => cases belongs

theorem mem_entries_hung
    (check : scene.checkAttach id slot = .ok ())
    {place : Place}
    {other : OwnerId} :
    other ∈ (scene.hung id slot).entries place ↔
      (other = id ∧ place = slot.place) ∨ other ∈ scene.entries place := by
  rw [entries_hung (offers_of_check check)]
  split
  · next same => simp [mem_insertAt, same]
  · next differs => simp [Ne.symm differs]

/-- An attached owner belongs to the place of its slot. -/
theorem home?_hung (check : scene.checkAttach id slot = .ok ()) :
    (scene.hung id slot).home? id = some slot.place := by
  rw [home?_eq_some_iff, categoryOf_hung]
  refine ⟨(checkAttach_eq_ok_iff.1 check).1, ?_⟩
  intro host belongs
  rw [parentOf_hung (known_of_check check), if_pos rfl, ← Slot.host?_place]
  exact belongs

theorem parentOf_hung_self (check : scene.checkAttach id slot = .ok ()) :
    (scene.hung id slot).parentOf id = slot.host? := by
  rw [parentOf_hung (known_of_check check), if_pos rfl]

theorem parentOf_hung_of_ne
    (check : scene.checkAttach id slot = .ok ())
    {other : OwnerId}
    (differs : other ≠ id) :
    (scene.hung id slot).parentOf other = scene.parentOf other := by
  rw [parentOf_hung (known_of_check check), if_neg differs.symm]

/-- What does not lie within the attached owner climbs as before. -/
theorem rooted_hung_outside
    (linked : scene.Linked loose)
    (check : scene.checkAttach id slot = .ok ())
    {other : OwnerId}
    (category : scene.categoryOf other = some .object ∨
      scene.categoryOf other = some .tag)
    (avoids : ¬ scene.Climbs other id) :
    ∃ top, (scene.hung id slot).Climbs other top ∧
      (top = scene.root ∨ top ∈ loose \ {id}) := by
  obtain ⟨top, above, isTop⟩ := linked.rooted other category
  refine ⟨top, above.avoiding (fun _ => parentOf_hung_of_ne check) avoids,
    isTop.imp_right fun member => ⟨member, ?_⟩⟩
  rintro rfl
  exact avoids above

/-- What lies within the attached owner climbs on from its host, which does
not. -/
theorem rooted_hung
    (linked : scene.Linked loose)
    (check : scene.checkAttach id slot = .ok ())
    {other : OwnerId}
    (category : scene.categoryOf other = some .object ∨
      scene.categoryOf other = some .tag) :
    ∃ top, (scene.hung id slot).Climbs other top ∧
      (top = scene.root ∨ top ∈ loose \ {id}) := by
  by_cases passes : scene.Climbs other id
  · have sort : scene.categoryOf id = some .object ∨
        scene.categoryOf id = some .tag := by
      rcases passes.cases_tail with same | ⟨child, _, step⟩
      · rw [same]
        exact category
      · exact Or.inl (linked.host_category child id step)
    obtain ⟨host, belongs⟩ : ∃ host, slot.host? = some host := by
      rw [(checkAttach_eq_ok_iff.1 check).1] at sort
      cases slot with
      | child parent index => exact ⟨parent, rfl⟩
      | tag object index => exact ⟨object, rfl⟩
      | style | tool => rcases sort with sort | sort <;> cases sort
    obtain ⟨top, above, isTop⟩ := linked.rooted_hung_outside check
      (Or.inl ((checkAttach_eq_ok_iff.1 check).2.1 host belongs))
      (linked.not_climbs_host check belongs)
    have toOwner : (scene.hung id slot).Climbs other id :=
      passes.until_moved fun _ => parentOf_hung_of_ne check
    have onward : (scene.hung id slot).Climbs id host :=
      Climbs.single ((parentOf_hung_self check).trans belongs)
    exact ⟨top, (toOwner.trans onward).trans above, isTop⟩
  · exact linked.rooted_hung_outside check category passes

/-- Attaching a loose owner makes it belong. -/
theorem hung
    (linked : scene.Linked loose)
    (isLoose : id ∈ loose)
    (check : scene.checkAttach id slot = .ok ()) :
    (scene.hung id slot).Linked (loose \ {id}) := by
  have notRoot : scene.root ≠ id :=
    fun same => linked.root_fixed (same ▸ isLoose)
  have unlisted : ∀ place, id ∉ scene.entries place :=
    fun place member => ((linked.listed place id).1 member).2 isLoose
  constructor
  case root_category => simpa using linked.root_category
  case root_parent =>
    rw [root_hung, parentOf_hung_of_ne check notRoot]
    exact linked.root_parent
  case root_fixed =>
    rw [root_hung]
    exact fun member => linked.root_fixed member.1
  case nodup =>
    intro place
    rw [entries_hung (offers_of_check check)]
    split
    · exact nodup_insertAt (linked.nodup place) (unlisted place) _
    · exact linked.nodup place
  case listed =>
    intro place other
    rw [mem_entries_hung check, Set.mem_sdiff, Set.mem_singleton_iff]
    by_cases same : other = id
    · subst same
      rw [home?_hung check]
      simp [unlisted, eq_comm]
    · rw [home?_congr (categoryOf_hung other) (parentOf_hung_of_ne check same),
        linked.listed]
      simp [same]
  case host_category =>
    intro other parent step
    rw [categoryOf_hung]
    by_cases same : other = id
    · rw [same, parentOf_hung_self check] at step
      exact (checkAttach_eq_ok_iff.1 check).2.1 parent step
    · rw [parentOf_hung_of_ne check same] at step
      exact linked.host_category other parent step
  case child_category =>
    intro other parent step
    rw [categoryOf_hung]
    by_cases same : other = id
    · rw [same, parentOf_hung_self check] at step
      rw [same, (checkAttach_eq_ok_iff.1 check).1]
      cases slot with
      | child => exact Or.inl rfl
      | tag => exact Or.inr rfl
      | style | tool => cases step
    · rw [parentOf_hung_of_ne check same] at step
      exact linked.child_category other parent step
  case loose_parent =>
    intro other member
    rw [parentOf_hung_of_ne check member.2]
    exact linked.loose_parent other member.1
  case loose_known =>
    intro other member
    rw [categoryOf_hung]
    exact linked.loose_known other member.1
  case rooted =>
    intro other category
    simp only [categoryOf_hung, root_hung] at category ⊢
    exact linked.rooted_hung check category

end Linked

end Hung

/-! ### Detaching and attaching take each other back -/

section Inverse

variable {id : OwnerId} {slot : Slot}

/-- Replacing the parent of an owner by the one it has changes nothing. -/
theorem stem?_of_parentOf
    {parent : Option OwnerId}
    (same : scene.parentOf id = parent) :
    (scene.stem? id).map (fun owner => { owner with parent }) =
      scene.stem? id := by
  rw [parentOf_eq_stem?] at same
  cases found : scene.stem? id with
  | none => rfl
  | some owner =>
      rw [found] at same
      subst same
      rfl

namespace Linked

/-- The parent of a listed owner is the host of its slot. -/
theorem parentOf_of_slotOf
    (linked : scene.Linked loose)
    (found : scene.slotOf id = some slot) :
    scene.parentOf id = slot.host? := by
  obtain ⟨home, _⟩ := slotOf_eq_some_iff.1 found
  obtain ⟨category, parent⟩ := scene.home?_eq_some_iff.1 home
  rw [Slot.host?_place] at parent
  cases host : slot.host? with
  | some object => exact parent object host
  | none =>
      cases above : scene.parentOf id with
      | none => rfl
      | some object =>
          have sort := linked.child_category id object above
          rw [category] at sort
          cases slot with
          | child | tag => cases host
          | style | tool => rcases sort with sort | sort <;> cases sort

/-- A detached owner may go back to its slot. -/
theorem check_released
    (linked : scene.Linked loose)
    (found : scene.slotOf id = some slot) :
    (scene.released id slot).checkAttach id slot = .ok () := by
  obtain ⟨home, _⟩ := slotOf_eq_some_iff.1 found
  have parent := linked.parentOf_of_slotOf found
  refine checkAttach_eq_ok_iff.2 ⟨?_, ?_, ?_⟩
  · rw [categoryOf_released]
    exact (scene.home?_eq_some_iff.1 home).1
  · intro host belongs
    rw [categoryOf_released]
    exact linked.host_category id host (parent.trans belongs)
  · rintro host index rfl
    rw [← Bool.not_eq_true, isWithin_iff (linked.released found).acyclic]
    intro climbs
    refine linked.acyclic id host parent (climbs.mono ?_)
    intro other above step
    rw [parentOf_released] at step
    split at step
    · cases step
    · exact step

theorem hung_released
    (linked : scene.Linked loose)
    (found : scene.slotOf id = some slot) :
    (scene.released id slot).hung id slot = scene := by
  obtain ⟨_, position⟩ := slotOf_eq_some_iff.1 found
  have member : id ∈ scene.entries slot.place :=
    List.isSome_idxOf?.1 (by rw [position]; rfl)
  have offers := linked.offers_of_mem member
  apply ext_of_places
  · simp
  · simp
  · intro other
    rw [Scene.hung, stem?_setParent, stem?_editEntries, stem?_editEntries,
      Scene.released, stem?_setParent, stem?_setParent, stem?_editEntries,
      stem?_editEntries]
    split
    · next same =>
      subst same
      rw [if_pos rfl, Option.map_map]
      exact stem?_of_parentOf (linked.parentOf_of_slotOf found)
    · rfl
  · intro place
    rw [entries_hung (offers_of_check (linked.check_released found)),
      Scene.entries_released offers]
    split
    · next same =>
      subst same
      exact insertAt_eraseIdx position
    · rfl

/-- Attaching a detached owner at its old slot takes the detaching back. -/
theorem attach_detached
    (linked : scene.Linked loose)
    {detached : Scene}
    (done : scene.detach id = .ok (detached, slot)) :
    detached.attach id slot = .ok scene := by
  obtain ⟨found, rfl⟩ := detach_eq_ok_iff.1 done
  exact attach_eq_ok_iff.2
    ⟨linked.check_released found, (linked.hung_released found).symm⟩

/-- The slot of an owner that was just attached; a position past the end of a
list is its end. -/
theorem slotOf_hung
    (linked : scene.Linked loose)
    (isLoose : id ∈ loose)
    (check : scene.checkAttach id slot = .ok ()) :
    (scene.hung id slot).slotOf id =
      some
        (slot.place.slot
          (Nat.min slot.index (scene.entries slot.place).length)) := by
  rw [slotOf_eq, home?_hung check]
  simp only [Option.bind_some]
  rw [entries_hung (offers_of_check check), if_pos rfl, idxOf?_insertAt]
  · rfl
  · intro member
    exact ((linked.listed slot.place id).1 member).2 isLoose

/-- Detaching an owner that was just attached takes the attaching back. -/
theorem detach_attached
    (linked : scene.Linked loose)
    (isLoose : id ∈ loose)
    {attached : Scene}
    (done : scene.attach id slot = .ok attached) :
    ∃ found, attached.detach id = .ok (scene, found) := by
  obtain ⟨check, rfl⟩ := attach_eq_ok_iff.1 done
  have found := linked.slotOf_hung isLoose check
  refine ⟨_, detach_eq_ok_iff.2 ⟨found, ?_⟩⟩
  have offers := offers_of_check check
  apply ext_of_places
  · simp
  · simp
  · intro other
    rw [Scene.released, stem?_setParent, stem?_editEntries,
      stem?_editEntries, Scene.hung, stem?_setParent, stem?_setParent,
      stem?_editEntries, stem?_editEntries]
    split
    · next same =>
      subst same
      rw [if_pos rfl, Option.map_map]
      exact (stem?_of_parentOf (linked.loose_parent id isLoose)).symm
    · rfl
  · intro place
    have offersAgain : (scene.hung id slot).Offers
        (slot.place.slot
          (Nat.min slot.index (scene.entries slot.place).length)).place := by
      intro host belongs
      rw [categoryOf_hung]
      rw [Slot.place_slot] at belongs
      exact offers host belongs
    rw [Scene.entries_released offersAgain, entries_hung offers,
      Slot.place_slot, Slot.index_slot]
    split
    · next same =>
      subst same
      exact (eraseIdx_insertAt _ _ _).symm
    · rfl

end Linked

end Inverse

end Scene
end MotionScene
