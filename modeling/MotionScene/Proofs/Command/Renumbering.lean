import Mathlib.Data.List.Nodup
import MotionScene.Command.Copying
import MotionScene.Proofs.Scene.Content

/-!
# Copies under new numbers

Some owners of a scene are copied under numbers that were never given out, with
everything beneath them.  As no two owners get the same number, the copies are
linked among themselves just as the originals are; a copy is loose when the
parent of the original is not copied.
-/

namespace MotionScene

namespace Renumbering

variable {renumbering : Renumbering} {scene other : Scene} {start : Nat}
  {ids : List OwnerId} {id new : OwnerId}

/-! ## Consecutive numbers -/

theorem mem_of_getElem?_insertMany
    {items : List (OwnerId × OwnerId)}
    (found : (renumbering.insertMany items)[id]? = some new) :
    (id, new) ∈ items ∨ renumbering[id]? = some new := by
  induction items generalizing renumbering with
  | nil =>
      rw [Std.ExtTreeMap.insertMany_nil] at found
      exact Or.inr found
  | cons item rest inductionHypothesis =>
      obtain ⟨key, value⟩ := item
      rw [Std.ExtTreeMap.insertMany_cons] at found
      rcases inductionHypothesis found with later | earlier
      · exact Or.inl (List.mem_cons_of_mem _ later)
      · rw [Std.ExtTreeMap.getElem?_insert] at earlier
        split at earlier
        · next same =>
          cases earlier
          cases Std.LawfulEqOrd.eq_of_compare same
          exact Or.inl List.mem_cons_self
        · exact Or.inr earlier

/-- A new number is the position of an owner in the list, counted from the first
new number. -/
theorem position_of_consecutive
    (found : (consecutive start ids)[id]? = some new) :
    start ≤ new.number ∧ ids[new.number - start]? = some id := by
  rw [consecutive, Std.ExtTreeMap.ofList_eq_insertMany_empty] at found
  rcases mem_of_getElem?_insertMany found with listed | nowhere
  · obtain ⟨⟨key, number⟩, member, same⟩ := List.mem_map.1 listed
    cases same
    obtain ⟨above, bound, entry⟩ := List.mem_zipIdx member
    exact ⟨above, List.getElem?_eq_some_iff.2 ⟨by simp only; omega, entry.symm⟩⟩
  · simp at nowhere

theorem mem_consecutive : id ∈ consecutive start ids ↔ id ∈ ids := by
  simp [consecutive, Std.ExtTreeMap.mem_ofList, Function.comp_def]

theorem image_of_some (found : renumbering[id]? = some new) :
    renumbering.image id = new := by
  rw [image, Std.ExtTreeMap.getD_eq_getD_getElem?, found]
  rfl

theorem image_of_none (missing : renumbering[id]? = none) :
    renumbering.image id = id := by
  rw [image, Std.ExtTreeMap.getD_eq_getD_getElem?, missing]
  rfl

/-! ## Scenes with copies -/

/-- Some owners of a scene get new numbers, and everything beneath them goes
with them. -/
structure Fresh (renumbering : Renumbering) (scene : Scene) : Prop where
  injective : ∀ id other new : OwnerId, renumbering[id]? = some new →
    renumbering[other]? = some new → id = other
  absent : ∀ id new : OwnerId, renumbering[id]? = some new →
    scene.owner? new = none
  known : ∀ id new : OwnerId, renumbering[id]? = some new →
    ∃ owner, scene.owner? id = some owner
  whole : ∀ id parent newParent : OwnerId, scene.parentOf id = some parent →
    renumbering[parent]? = some newParent → ∃ new, renumbering[id]? = some new
  rooted : ∀ id new : OwnerId, renumbering[id]? = some new →
    ∃ top newTop, renumbering[top]? = some newTop ∧ scene.Climbs id top ∧
      ∀ parent, scene.parentOf top = some parent → renumbering[parent]? = none

/-- The scene has copies of some owners of another one, under their new
numbers. -/
structure Copies (renumbering : Renumbering) (scene other : Scene) : Prop where
  root : other.root = scene.root
  styles : other.styles = scene.styles
  tools : other.tools = scene.tools
  selection : other.selection = scene.selection
  old : ∀ id : OwnerId, (∀ source : OwnerId, renumbering[source]? ≠ some id) →
    other.owner? id = scene.owner? id
  copied : ∀ (id new : OwnerId) (owner : Owner), renumbering[id]? = some new →
    scene.owner? id = some owner →
    other.owner? new = some (renumbering.owner owner)

/-- The numbers of the copies. -/
def news (renumbering : Renumbering) : Set OwnerId :=
  {new | ∃ id : OwnerId, renumbering[id]? = some new}

/-! ## Copied content -/

theorem kind_property (owner : OwnerId) (property : Property) :
    (renumbering.property owner property).value.kind = property.value.kind := by
  unfold Renumbering.property
  split
  · next refers => rw [refers]; rfl
  · rfl

theorem target?_property (owner : OwnerId) (property : Property) :
    (renumbering.property owner property).value.target? =
      property.value.target?.map renumbering.image := by
  unfold Renumbering.property
  cases property.value with
  | reference target => cases target <;> rfl
  | _ => rfl

theorem sound_property
    {property : Property}
    {owner : OwnerId}
    (sound : property.Sound owner)
    (new : OwnerId) :
    (renumbering.property new property).Sound new := by
  refine ⟨(kind_property new property).trans sound.value_kind, ?_⟩
  intro track isTrack
  obtain ⟨original, isOriginal, rfl⟩ := Option.map_eq_some_iff.1 isTrack
  exact (sound.track_fits original isOriginal).retargeted _

theorem sound_owner {owner : Owner} (sound : owner.Sound) :
    (renumbering.owner owner).Sound := by
  refine ⟨sound.geometry_iff, ?_, ?_⟩
  · have names : ((renumbering.owner owner).properties.map Property.name) =
        owner.properties.map Property.name := by
      rw [Renumbering.owner, List.map_map]
      rfl
    rw [names]
    exact sound.names
  · intro property member
    obtain ⟨original, isOriginal, rfl⟩ := List.mem_map.1 member
    exact sound_property (sound.properties original isOriginal) _

/-! ## The links of copies -/

/-- What climbs to a copied owner is copied. -/
theorem Fresh.copied_of_climbs
    (fresh : renumbering.Fresh scene)
    {top newTop : OwnerId}
    (climbs : scene.Climbs id top)
    (copied : renumbering[top]? = some newTop) :
    ∃ new, renumbering[id]? = some new := by
  induction climbs using Relation.ReflTransGen.head_induction_on with
  | refl => exact ⟨newTop, copied⟩
  | @head id parent step _ inductionHypothesis =>
      obtain ⟨newParent, parentCopied⟩ := inductionHypothesis
      exact fresh.whole id parent newParent step parentCopied

namespace Copies

variable (fresh : renumbering.Fresh scene)
  (copies : renumbering.Copies scene other)
include fresh copies

theorem owner?_of_known {owner : Owner} (found : scene.owner? id = some owner) :
    other.owner? id = some owner := by
  rw [copies.old id, found]
  intro source isNew
  rw [fresh.absent source id isNew] at found
  cases found

theorem categoryOf_copied (found : renumbering[id]? = some new) :
    other.categoryOf new = scene.categoryOf id := by
  obtain ⟨owner, known⟩ := fresh.known id new found
  simp only [Scene.categoryOf, copies.copied id new owner found known, known]
  rfl

theorem parentOf_copied (found : renumbering[id]? = some new) :
    other.parentOf new = (scene.parentOf id).bind fun parent =>
      renumbering[parent]? := by
  obtain ⟨owner, known⟩ := fresh.known id new found
  simp only [Scene.parentOf, copies.copied id new owner found known, known]
  rfl

theorem entries_copied
    {place : Place}
    (belongs : place.host? = some id)
    (found : renumbering[id]? = some new) :
    other.entries (place.moved new) =
      (scene.entries place).map renumbering.image := by
  obtain ⟨owner, known⟩ := fresh.known id new found
  cases place with
  | children host | tags host =>
      cases belongs
      simp only [Place.moved, Scene.entries,
        copies.copied id new owner found known, known]
      rfl
  | styles | tools => cases belongs

/-- A copy belongs to the list of a copy when the original belongs to that of
the original. -/
theorem home?_copied
    (found : renumbering[id]? = some new)
    {place : Place}
    {host newHost : OwnerId}
    (belongs : place.host? = some host)
    (hostFound : renumbering[host]? = some newHost) :
    other.home? new = some (place.moved newHost) ↔
      scene.home? id = some place := by
  rw [Scene.home?_eq_some_iff, Scene.home?_eq_some_iff,
    copies.categoryOf_copied fresh found, copies.parentOf_copied fresh found,
    Place.category_moved, Place.host?_moved belongs, belongs]
  simp only [Option.some.injEq, forall_eq', Option.bind_eq_some_iff,
    and_congr_right_iff]
  intro _
  constructor
  · rintro ⟨parent, step, parentFound⟩
    rw [step, fresh.injective parent host newHost parentFound hostFound]
  · intro step
    exact ⟨host, step, hostFound⟩

/-- The copies climb as the originals do. -/
theorem climbs_copied
    {top newTop : OwnerId}
    (climbs : scene.Climbs id top)
    (found : renumbering[id]? = some new)
    (topFound : renumbering[top]? = some newTop) :
    other.Climbs new newTop := by
  induction climbs using Relation.ReflTransGen.head_induction_on
    generalizing new with
  | refl =>
      rw [found] at topFound
      cases topFound
      exact .refl other _
  | @head id parent step rest inductionHypothesis =>
      obtain ⟨newParent, parentFound⟩ := fresh.copied_of_climbs rest topFound
      refine .head ?_ (inductionHypothesis parentFound)
      rw [copies.parentOf_copied fresh found, step]
      exact parentFound

/-- The copies are linked among themselves only. -/
theorem grows (linked : scene.Linked ∅) :
    scene.Grows other renumbering.news := by
  constructor
  case root => exact copies.root
  case styles => exact copies.styles
  case tools => exact copies.tools
  case old =>
    intro id isOld
    exact copies.old id fun source isNew => isOld ⟨source, isNew⟩
  case absent =>
    rintro new ⟨id, found⟩
    exact fresh.absent id new found
  case known =>
    rintro new ⟨id, found⟩
    obtain ⟨owner, known⟩ := fresh.known id new found
    rw [copies.categoryOf_copied fresh found, Scene.categoryOf, known]
    rfl
  case parent_fresh =>
    rintro new ⟨id, found⟩ newParent step
    rw [copies.parentOf_copied fresh found] at step
    obtain ⟨parent, original, parentFound⟩ := Option.bind_eq_some_iff.1 step
    rw [copies.categoryOf_copied fresh found,
      copies.categoryOf_copied fresh parentFound]
    exact ⟨⟨parent, parentFound⟩, linked.host_category id parent original,
      linked.child_category id parent original⟩
  case nodup =>
    rintro place newHost belongs ⟨host, found⟩
    have original := Place.host?_moved belongs host
    rw [← Place.moved_self belongs, ← Place.moved_moved place host,
      copies.entries_copied fresh original found]
    refine (linked.nodup _).map_on ?_
    intro a memberA b memberB same
    obtain ⟨newA, foundA⟩ :=
      fresh.whole a host newHost (linked.host_of_mem memberA original).1 found
    obtain ⟨newB, foundB⟩ :=
      fresh.whole b host newHost (linked.host_of_mem memberB original).1 found
    rw [image_of_some foundA, image_of_some foundB] at same
    subst same
    exact fresh.injective a b newA foundA foundB
  case listed =>
    rintro place newHost belongs ⟨host, found⟩ new
    have original := Place.host?_moved belongs host
    rw [← Place.moved_self belongs, ← Place.moved_moved place host,
      copies.entries_copied fresh original found, List.mem_map]
    constructor
    · rintro ⟨id, member, rfl⟩
      obtain ⟨new, idFound⟩ :=
        fresh.whole id host newHost (linked.host_of_mem member original).1
          found
      rw [image_of_some idFound,
        copies.home?_copied fresh idFound original found]
      exact ⟨⟨id, idFound⟩, ((linked.listed _ id).1 member).1⟩
    · rintro ⟨⟨id, idFound⟩, home⟩
      rw [copies.home?_copied fresh idFound original found] at home
      exact ⟨id, linked.mem_home home (Set.notMem_empty id),
        image_of_some idFound⟩
  case rooted =>
    rintro new ⟨id, found⟩
    obtain ⟨top, newTop, topFound, climbs, outside⟩ := fresh.rooted id new found
    refine ⟨newTop, ⟨top, topFound⟩,
      copies.climbs_copied fresh climbs found topFound, ?_⟩
    rw [copies.parentOf_copied fresh topFound]
    exact Option.bind_eq_none_iff.2 outside

/-- Every owner is an old one or a copy. -/
theorem content?_cases
    {content : Owner}
    (found : other.content? id = some content) :
    scene.content? id = some content ∨
      ∃ source owner, scene.owner? source = some owner ∧
        content = (renumbering.owner owner).content := by
  by_cases isNew : ∃ source : OwnerId, renumbering[source]? = some id
  · obtain ⟨source, isNew⟩ := isNew
    obtain ⟨owner, known⟩ := fresh.known source id isNew
    rw [Scene.content?, copies.copied source id owner isNew known] at found
    exact Or.inr ⟨source, owner, known, (Option.some.inj found).symm⟩
  · rw [Scene.content?, copies.old id fun source isNewId =>
      isNew ⟨source, isNewId⟩] at found
    exact Or.inl found

/-- The image of an owner has its category. -/
theorem categoryOf_image
    {category : Category}
    (known : scene.categoryOf id = some category) :
    other.categoryOf (renumbering.image id) = some category := by
  cases found : renumbering[id]? with
  | some new =>
      rw [image_of_some found, copies.categoryOf_copied fresh found]
      exact known
  | none =>
      obtain ⟨owner, isOwner, rfl⟩ := scene.categoryOf_eq_some_iff.1 known
      rw [image_of_none found]
      exact other.categoryOf_eq_some_iff.2
        ⟨owner, copies.owner?_of_known fresh isOwner, rfl⟩

theorem sound (sound : scene.Sound) : other.Sound := by
  constructor
  · intro id content found
    rcases copies.content?_cases fresh found with
      original | ⟨source, owner, known, rfl⟩
    · exact sound.owners id content original
    · exact (sound_owner (sound.owner known)).congr rfl
  · intro id content found property member
    rcases copies.content?_cases fresh found with
      original | ⟨source, owner, known, rfl⟩
    · refine (sound.references id content original property member).mono ?_
      intro target category isCategory
      obtain ⟨owner, isOwner, rfl⟩ := scene.categoryOf_eq_some_iff.1 isCategory
      exact other.categoryOf_eq_some_iff.2
        ⟨owner, copies.owner?_of_known fresh isOwner, rfl⟩
    · obtain ⟨original, isOriginal, rfl⟩ := List.mem_map.1 member
      intro newTarget refers
      rw [target?_property] at refers
      obtain ⟨target, refersOriginally, rfl⟩ := Option.map_eq_some_iff.1 refers
      obtain ⟨category, isCategory, allowed⟩ :=
        sound.references source owner.content
          (Scene.content?_of_owner? known) original isOriginal target
          refersOriginally
      exact ⟨category, copies.categoryOf_image fresh isCategory, allowed⟩
  · intro id isSelected
    rw [copies.selection] at isSelected
    obtain ⟨owner, known⟩ :=
      Option.isSome_iff_exists.1 (sound.selection id isSelected)
    rw [Scene.contains, copies.owner?_of_known fresh known]
    rfl

end Copies

end Renumbering
end MotionScene
