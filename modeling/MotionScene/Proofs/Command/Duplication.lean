import Mathlib.Data.Set.Card
import MotionScene.Proofs.Command.Copying
import MotionScene.Proofs.Scene.DepthFirst

/-!
# What copying makes

Copying gives every owner within the sources a new number, and no number twice.
The copy of an owner is the owner itself with copied owners renamed: in its
links, in its references and as the target of its tracks.  The copies of the
topmost sources stand next to each other in the list where they were put, and
nothing else changes.
-/

namespace MotionScene

/-- The value with a reference to a copied owner turned to the copy. -/
def Value.redirected (isCopied : OwnerId → Bool) (copy : OwnerId → OwnerId) :
    Value → Value
  | .reference (some target) =>
    .reference (some (if isCopied target then copy target else target))
  | value => value

/-- The property as the copy of its owner has it. -/
def Property.duplicate
    (isCopied : OwnerId → Bool)
    (copy : OwnerId → OwnerId)
    (id : OwnerId)
    (property : Property) : Property :=
  { property with
    value := property.value.redirected isCopied copy
    track := property.track.map fun track =>
      { track with target := { track.target with owner := id } } }

/-- The copy of an owner under a parent. -/
def Owner.duplicate
    (isCopied : OwnerId → Bool)
    (copy : OwnerId → OwnerId)
    (parent : Option OwnerId)
    (owner : Owner) : Owner :=
  { owner with
    id := copy owner.id
    properties :=
      owner.properties.map (Property.duplicate isCopied copy (copy owner.id))
    parent
    children := owner.children.map copy
    tags := owner.tags.map copy }

/-- A scene with copies of some owners of another one.  The topmost copies hang
next to each other on a host, from an index on or at the end of its children;
the other owners are the same. -/
structure Scene.Duplicates
    (scene : Scene)
    (isCopied : OwnerId → Bool)
    (copy : OwnerId → OwnerId)
    (top : List OwnerId)
    (host : OwnerId)
    (index : Nat)
    (final : Scene) : Prop where
  root : final.root = scene.root
  styles : final.styles = scene.styles
  tools : final.tools = scene.tools
  selection : final.selection = scene.selection
  copied : ∀ id owner, isCopied id = true → scene.owner? id = some owner →
    final.owner? (copy id) = some (owner.duplicate isCopied copy
      (if id ∈ top then some host else owner.parent.map copy))
  attached : ∀ owner, scene.owner? host = some owner →
    final.owner? host = some { owner with
      children :=
        owner.children.take index ++ top.map copy ++ owner.children.drop index }
  others : ∀ id, id ≠ host →
    (∀ source, isCopied source = true → copy source ≠ id) →
    final.owner? id = scene.owner? id

namespace Renumbering

variable {renumbering : Renumbering} {scene : Scene} {start : Nat}
  {ids : List OwnerId}

/-! ## Consecutive numbers are all given out -/

theorem exists_consecutive (start : Nat) {id : OwnerId} (listed : id ∈ ids) :
    ∃ new, (consecutive start ids)[id]? = some new ∧
      (consecutive start ids).image id = new := by
  have member : id ∈ consecutive start ids := mem_consecutive.2 listed
  rw [Std.ExtTreeMap.mem_iff_isSome_getElem?] at member
  obtain ⟨new, found⟩ := Option.isSome_iff_exists.1 member
  exact ⟨new, found, image_of_some found⟩

theorem mapsTo_consecutive :
    Set.MapsTo (consecutive start ids).image {id | id ∈ ids}
      {new | start ≤ new.number ∧ new.number < start + ids.length} := by
  intro id listed
  obtain ⟨new, found, rfl⟩ := exists_consecutive start listed
  obtain ⟨above, position⟩ := position_of_consecutive found
  obtain ⟨bound, _⟩ := List.getElem?_eq_some_iff.1 position
  exact ⟨above, by omega⟩

theorem injOn_consecutive :
    Set.InjOn (consecutive start ids).image {id | id ∈ ids} := by
  intro id listed other otherListed same
  obtain ⟨new, found, isNew⟩ := exists_consecutive start listed
  obtain ⟨otherNew, otherFound, isOtherNew⟩ :=
    exists_consecutive start otherListed
  obtain rfl : new = otherNew := isNew.symm.trans (same.trans isOtherNew)
  have position := (position_of_consecutive found).2
  rw [(position_of_consecutive otherFound).2] at position
  exact (Option.some.inj position).symm

/-- A list without repetition leaves no number out. -/
theorem surjOn_consecutive (distinct : ids.Nodup) :
    Set.SurjOn (consecutive start ids).image {id | id ∈ ids}
      {new | start ≤ new.number ∧ new.number < start + ids.length} := by
  rintro ⟨number⟩ ⟨above, below⟩
  have bound : number - start < ids.length := by
    simp only at above below
    omega
  obtain ⟨id, isId⟩ : ∃ id, ids[number - start]? = some id :=
    ⟨_, List.getElem?_eq_getElem bound⟩
  have listed : id ∈ ids := List.mem_of_getElem? isId
  refine ⟨id, listed, ?_⟩
  obtain ⟨new, found, isNew⟩ := exists_consecutive start listed
  obtain ⟨newAbove, position⟩ := position_of_consecutive found
  have same := (List.getElem?_inj bound distinct).1 (isId.trans position.symm)
  rw [isNew]
  cases new
  simp only [OwnerId.mk.injEq] at above newAbove same ⊢
  omega

theorem bijOn_consecutive (distinct : ids.Nodup) :
    Set.BijOn (consecutive start ids).image {id | id ∈ ids}
      {new | start ≤ new.number ∧ new.number < start + ids.length} :=
  ⟨mapsTo_consecutive, injOn_consecutive, surjOn_consecutive distinct⟩

/-! ## Copies are duplicates -/

variable {isCopied : OwnerId → Bool}

/-- Redirecting a reference takes its image. -/
theorem property_eq_duplicate
    (copied : ∀ id, isCopied id = true ↔ ∃ new, renumbering[id]? = some new)
    {owner new : OwnerId}
    {property : Property}
    (sound : property.Sound owner) :
    renumbering.property new property =
      property.duplicate isCopied renumbering.image new := by
  have images : ∀ target, renumbering.image target =
      if isCopied target then renumbering.image target else target := by
    intro target
    split
    · rfl
    · next outside =>
      rw [copied, ← Option.isSome_iff_exists, Option.not_isSome_iff_eq_none]
        at outside
      exact image_of_none outside
  have tracks : property.track.map
        (fun track => { track with target := ⟨new, property.name⟩ }) =
      property.track.map fun track =>
        { track with target := { track.target with owner := new } } := by
    refine Option.map_congr fun track isTrack => ?_
    rw [(sound.track_fits track isTrack).target_eq]
  unfold Renumbering.property Property.duplicate
  rw [tracks]
  congr 1
  cases property.value with
  | reference target =>
      cases target with
      | none => rfl
      | some target => rw [Value.redirected, ← images]
  | _ => rfl

theorem owner_eq_duplicate
    (copied : ∀ id, isCopied id = true ↔ ∃ new, renumbering[id]? = some new)
    {owner : Owner}
    (sound : owner.Sound) :
    renumbering.owner owner = owner.duplicate isCopied renumbering.image
      (owner.parent.bind fun parent => renumbering[parent]?) := by
  have properties :
      owner.properties.map (renumbering.property (renumbering.image owner.id)) =
      owner.properties.map
        (Property.duplicate isCopied renumbering.image
          (renumbering.image owner.id)) :=
    List.map_congr_left fun property member =>
      property_eq_duplicate copied (sound.properties property member)
  rw [Renumbering.owner, Owner.duplicate, properties]

end Renumbering

namespace CopyObjects

variable {scene final : Scene} {document middle : Document} {host : OwnerId}
  {index : Nat} {copies : List OwnerId}

/-! ## Hanging copies next to each other -/

/-- A scene with some owners hung next to each other on a host. -/
structure Hangs
    (host : OwnerId)
    (index : Nat)
    (copies : List OwnerId)
    (scene final : Scene) : Prop where
  root : final.root = scene.root
  selection : final.selection = scene.selection
  contents : ∀ id, final.content? id = scene.content? id
  parents : ∀ id, final.parentOf id =
    if id ∈ copies then some host else scene.parentOf id
  entries : ∀ place, final.entries place =
    if place = .children host then
      (scene.entries place).take index ++ copies ++
        (scene.entries place).drop index
    else scene.entries place

theorem Hangs.nil (host : OwnerId) (index : Nat) (scene : Scene) :
    Hangs host index [] scene scene where
  root := rfl
  selection := rfl
  contents _ := rfl
  parents _ := by simp
  entries _ := by simp

/-- The first one is hung, then the others behind it. -/
theorem Hangs.cons
    {id : OwnerId}
    {rest : List OwnerId}
    (check : scene.checkAttach id (.child host index) = .ok ())
    (hangs : Hangs host (index + 1) rest
      (scene.hung id (.child host index)) final) :
    Hangs host index (id :: rest) scene final := by
  constructor
  case root => rw [hangs.root, Scene.root_hung]
  case selection => rw [hangs.selection, Scene.selection_hung]
  case contents =>
    exact fun other => (hangs.contents other).trans (Scene.content?_hung other)
  case parents =>
    intro other
    rw [hangs.parents, Scene.parentOf_hung (Scene.known_of_check check)]
    by_cases isRest : other ∈ rest
    · simp [isRest]
    · simp [isRest, eq_comm, Slot.host?]
  case entries =>
    intro place
    rw [hangs.entries, Scene.entries_hung (Scene.offers_of_check check)]
    by_cases isHost : place = .children host
    · simp only [if_pos isHost,
        if_pos (show (Slot.child host index).place = place from isHost.symm)]
      exact Scene.insertAt_then _ index id rest
    · rw [if_neg isHost, if_neg isHost,
        if_neg (show (Slot.child host index).place ≠ place from
        fun same => isHost same.symm)]

theorem Hangs.owner?_eq
    (hangs : Hangs host index copies scene final)
    (id : OwnerId) :
    final.owner? id = (scene.owner? id).map fun owner =>
      { owner with
        parent := if id ∈ copies then some host else owner.parent
        children :=
          if id = host then
            owner.children.take index ++ copies ++ owner.children.drop index
          else owner.children } := by
  rw [Scene.owner?_eq_content?, hangs.contents, hangs.parents, hangs.entries,
    hangs.entries, Scene.content?]
  cases found : scene.owner? id with
  | none => rfl
  | some owner =>
      simp [Scene.parentOf, Scene.entries, found, Owner.content]

/-- An owner beneath the root does not lie within a loose one. -/
theorem not_climbs_loose
    {loose : Set OwnerId}
    (linked : scene.Linked loose)
    {id : OwnerId}
    (isLoose : id ∈ loose)
    (climbs : scene.Climbs host scene.root) :
    ¬ scene.Climbs host id := by
  intro toLoose
  have same : id = scene.root := by
    rcases toLoose.total climbs with above | above
    · exact above.eq_of_top (linked.loose_parent id isLoose)
    · exact (above.eq_of_top linked.root_parent).symm
  exact linked.root_fixed (same ▸ isLoose)

/-- Loose objects can all be hung on an object beneath the root. -/
theorem ends_attachAll
    (linked : middle.scene.Linked {id | id ∈ copies})
    (distinct : copies.Nodup)
    (objects : ∀ id ∈ copies, middle.scene.categoryOf id = some .object)
    (isObject : middle.scene.categoryOf host = some .object)
    (climbs : middle.scene.Climbs host middle.scene.root) :
    (attachAll host index copies).Ends middle
      (fun _ final => ∃ scene, final = { middle with scene } ∧
        Hangs host index copies middle.scene scene)
      fun _ => False := by
  induction copies generalizing index middle with
  | nil => exact ⟨middle.scene, rfl, .nil host index middle.scene⟩
  | cons id rest inductionHypothesis =>
      obtain ⟨later, distinctRest⟩ := List.nodup_cons.1 distinct
      have outside : ¬ middle.scene.Climbs host id :=
        not_climbs_loose linked List.mem_cons_self climbs
      have check :
          middle.scene.checkAttach id (.child host index) = .ok () := by
        refine Scene.checkAttach_eq_ok_iff.2
          ⟨objects id List.mem_cons_self, ?_, ?_⟩
        · rintro _ ⟨⟩
          exact isObject
        · rintro _ _ ⟨⟩
          rwa [← Bool.not_eq_true, Scene.isWithin_iff linked.acyclic]
      have upward : ∀ other above, middle.scene.parentOf other = some above →
          (middle.scene.hung id (.child host index)).parentOf other =
            some above := by
        intro other above step
        have differs : other ≠ id := by
          rintro rfl
          rw [linked.loose_parent other List.mem_cons_self] at step
          cases step
        rw [Scene.Linked.parentOf_hung_of_ne check differs]
        exact step
      refine .bind (.succeed
        (Attempt.map_eq_ok_iff.2
          ⟨_, Scene.attach_eq_ok_iff.2 ⟨check, rfl⟩, rfl⟩) ?_)
      refine (inductionHypothesis ?_ distinctRest ?_ ?_ ?_).mono ?_
      · rw [setOf_mem_rest later]
        exact linked.hung List.mem_cons_self check
      · intro other isRest
        rw [Scene.categoryOf_hung]
        exact objects other (List.mem_cons_of_mem id isRest)
      · rw [Scene.categoryOf_hung]
        exact isObject
      · rw [Scene.root_hung]
        exact climbs.mono upward
      · rintro _ _ ⟨scene, rfl, hangs⟩
        exact ⟨scene, rfl, hangs.cons check⟩

/-! ## Registering and hanging copies -/

section Duplicating

variable {renumbering : Renumbering} {inserted : Scene} {top : List OwnerId}
  {isCopied : OwnerId → Bool}
  (fresh : renumbering.Fresh scene)
  (within : ∀ id : OwnerId,
    (∃ new, renumbering[id]? = some new) ↔
      ∃ source ∈ top, scene.Climbs id source)

include within

theorem image_of_top {id : OwnerId} (isTop : id ∈ top) :
    renumbering[id]? = some (renumbering.image id) := by
  obtain ⟨new, found⟩ := (within id).2 ⟨id, isTop, .refl scene id⟩
  rw [Renumbering.image_of_some found, found]

/-- The copies of the topmost sources, in their order. -/
theorem filterMap_top :
    (top.filterMap fun id => renumbering[id]?) = top.map renumbering.image := by
  rw [← List.filterMap_eq_map]
  exact List.filterMap_congr fun id isTop => image_of_top within isTop

/-- The parent of a copied owner is copied, unless the owner is a topmost
source. -/
theorem parent_of_copied
    {id new : OwnerId}
    {owner : Owner}
    (found : renumbering[id]? = some new)
    (known : scene.owner? id = some owner)
    (notTop : id ∉ top) :
    (owner.parent.bind fun parent => renumbering[parent]?) =
      owner.parent.map renumbering.image := by
  have above : scene.parentOf id = owner.parent := by
    rw [Scene.parentOf, known, Option.bind_some]
  obtain ⟨source, isSource, climbs⟩ := (within id).1 ⟨new, found⟩
  rcases climbs.cases_head with rfl | ⟨parent, step, onward⟩
  · exact absurd isSource notTop
  · obtain ⟨newParent, parentFound⟩ :=
      (within parent).2 ⟨source, isSource, onward⟩
    rw [← above, step, Option.bind_some, Option.map_some, parentFound,
      Renumbering.image_of_some parentFound]

include fresh

theorem mem_map_image_iff
    {id new : OwnerId}
    (found : renumbering[id]? = some new) :
    new ∈ top.map renumbering.image ↔ id ∈ top := by
  rw [List.mem_map]
  constructor
  · rintro ⟨other, isTop, same⟩
    have otherFound := image_of_top within isTop
    rw [same] at otherFound
    rwa [fresh.injective id other new found otherFound]
  · exact fun isTop => ⟨id, isTop, Renumbering.image_of_some found⟩

/-- Copies that are registered and hung are duplicates. -/
theorem Hangs.duplicates
    (sound : scene.Sound)
    (copied : ∀ id, isCopied id = true ↔ ∃ new, renumbering[id]? = some new)
    (hostKnown : scene.contains host = true)
    (copies : renumbering.Copies scene inserted)
    (hangs : Hangs host index (top.map renumbering.image) inserted final) :
    scene.Duplicates isCopied renumbering.image top host index final := by
  have notCopy : ∀ {id}, (∀ source : OwnerId, renumbering[source]? ≠ some id) →
      id ∉ top.map renumbering.image := by
    intro id isOld isCopy
    obtain ⟨source, isTop, rfl⟩ := List.mem_map.1 isCopy
    exact isOld source (image_of_top within isTop)
  have hostOld : ∀ source : OwnerId, renumbering[source]? ≠ some host := by
    intro source found
    rw [Scene.contains, fresh.absent source host found] at hostKnown
    cases hostKnown
  constructor
  case root => exact hangs.root.trans copies.root
  case styles => exact (hangs.entries .styles).trans copies.styles
  case tools => exact (hangs.entries .tools).trans copies.tools
  case selection => exact hangs.selection.trans copies.selection
  case copied =>
    intro id owner isCopied known
    obtain ⟨new, found⟩ := (copied id).1 isCopied
    have differs : new ≠ host := by
      rintro rfl
      exact hostOld id found
    rw [Renumbering.image_of_some found, hangs.owner?_eq,
      copies.copied id new owner found known, Option.map_some,
      Renumbering.owner_eq_duplicate copied (sound.owner known), if_neg differs]
    by_cases isTop : id ∈ top
    · rw [if_pos ((mem_map_image_iff fresh within found).2 isTop), if_pos isTop]
      rfl
    · rw [if_neg (mt (mem_map_image_iff fresh within found).1 isTop),
        if_neg isTop, parent_of_copied within found known isTop]
  case attached =>
    intro owner known
    rw [hangs.owner?_eq, copies.owner?_of_known fresh known, Option.map_some,
      if_neg (notCopy hostOld), if_pos rfl]
  case others =>
    intro id differs isOther
    have isOld : ∀ source : OwnerId, renumbering[source]? ≠ some id := by
      intro source found
      exact isOther source ((copied source).2 ⟨id, found⟩)
        (Renumbering.image_of_some found)
    rw [hangs.owner?_eq, copies.old id isOld]
    simp only [if_neg differs, if_neg (notCopy isOld)]
    exact Option.map_id'

end Duplicating

/-- Registering copies and hanging the topmost ones cannot fail. -/
theorem ends_insertAll_duplicating
    (command : CopyObjects)
    (document : Document)
    {start : Nat}
    {sources : List OwnerId}
    (linked : document.scene.Linked ∅)
    (sound : document.scene.Sound)
    (numbers : ∀ id, document.scene.contains id = true → id.number < start)
    (isHost : document.scene.categoryOf command.parent = some .object)
    (areObjects : ∀ id ∈ sources, document.scene.categoryOf id = some .object) :
    let top := document.scene.topLevel sources
    let renumbering :=
      Renumbering.consecutive start (top.flatMap document.scene.subtree)
    (command.insertAll
      ((renumbering.keys.filterMap document.scene.owner?).map renumbering.owner)
      (top.filterMap fun id => renumbering[id]?)).Ends document
      (fun _ final => ∃ scene, final = { document with scene } ∧
        document.scene.Duplicates
          (document.scene.withinAny sources) renumbering.image top
          command.parent command.index scene)
      fun _ => False := by
  intro top renumbering
  have known : ∀ id ∈ sources, document.scene.contains id = true :=
    fun id isSource => Scene.contains_of_categoryOf (areObjects id isSource)
  have alone : ∀ source ∈ top, ∀ other ∈ top,
      document.scene.Climbs source other → other = source :=
    fun _ isSource _ isOther =>
      Scene.eq_of_climbs_topLevel linked.acyclic isSource isOther
  have fresh : renumbering.Fresh document.scene :=
    fresh_consecutive linked numbers
      (fun _ isTop => Scene.contains_of_mem_topLevel isTop) alone
  have within : ∀ id : OwnerId, (∃ new, renumbering[id]? = some new) ↔
      ∃ source ∈ top, document.scene.Climbs id source :=
    fun id => copied_iff linked
  have copied : ∀ id, document.scene.withinAny sources id = true ↔
      ∃ new, renumbering[id]? = some new := by
    intro id
    rw [within, Scene.exists_topLevel_iff linked.acyclic known,
      Scene.withinAny_iff linked.acyclic]
  have copies := copies_foldl_insert fresh
  generalize ((renumbering.keys.filterMap document.scene.owner?).map
    renumbering.owner) = owners at copies ⊢
  have grows := copies.grows fresh linked
  have insertedLinked := grows.linked linked
  rw [Set.empty_union, loose_copies linked alone fresh copies] at insertedLinked
  have distinct : (top.filterMap fun id => renumbering[id]?).Nodup :=
    (Scene.nodup_topLevel _ _).filterMap fun a b new foundA foundB =>
      fresh.injective a b new foundA foundB
  refine .bind
    (.scene ((ends_attachAll insertedLinked distinct ?_ ?_ ?_).mono ?_))
  · intro new isCopy
    obtain ⟨id, isTop, found⟩ := List.mem_filterMap.1 isCopy
    rw [copies.categoryOf_copied fresh found]
    exact areObjects id ((Scene.mem_topLevel_iff linked.acyclic).1 isTop).1.1
  · obtain ⟨owner, isOwner, sort⟩ :=
      document.scene.categoryOf_eq_some_iff.1 isHost
    exact Scene.categoryOf_eq_some_iff _ |>.2
      ⟨owner, copies.owner?_of_known fresh isOwner, sort⟩
  · rw [copies.root]
    exact (linked.climbs_root_iff.2 (Or.inl isHost)).mono
      fun _ _ => grows.parentOf_of_old
  · rintro _ _ ⟨scene, rfl, hangs⟩
    rw [filterMap_top within] at hangs
    exact ⟨scene, rfl, hangs.duplicates fresh within sound copied
      (Scene.contains_of_categoryOf isHost) copies⟩

/-- The owners that are copied, each of them once. -/
theorem nodup_members (linked : scene.Linked ∅) (sources : List OwnerId) :
    ((scene.topLevel sources).flatMap scene.subtree).Nodup := by
  refine List.nodup_flatMap.2 ⟨fun id _ => Scene.nodup_subtree scene id, ?_⟩
  refine (Scene.apart_topLevel linked.acyclic sources).imp ?_
  intro first second apart id inFirst inSecond
  exact apart id (linked.mem_subtree_iff.1 inFirst)
    (linked.mem_subtree_iff.1 inSecond)

theorem check_eq_ok
    {command : CopyObjects}
    (isHost : scene.isOf .object command.parent = true)
    (areObjects : ∀ id ∈ command.sources, scene.isOf .object id = true) :
    command.check scene = .ok () := by
  obtain ⟨owner, found, sort⟩ :=
    scene.categoryOf_eq_some_iff.1 (Scene.isOf_eq_true_iff.1 isHost)
  have none_other :
      (command.sources.find? fun id => !scene.isOf .object id) = none := by
    rw [List.find?_eq_none]
    intro id isSource
    simp [areObjects id isSource]
  simp [check, Scene.owner, found, Scene.isObject_iff.2 sort, none_other]

/-- The owners that are copied are those within the listed objects. -/
theorem setOf_withinAny
    (linked : scene.Linked ∅)
    {sources : List OwnerId}
    (known : ∀ id ∈ sources, scene.contains id = true) :
    {id | scene.withinAny sources id = true} =
      {id | id ∈ (scene.topLevel sources).flatMap scene.subtree} := by
  ext id
  simp only [Set.mem_ofPred_eq, Scene.withinAny_iff linked.acyclic,
    List.mem_flatMap, linked.mem_subtree_iff,
    Scene.exists_topLevel_iff linked.acyclic known]

theorem ncard_withinAny
    (linked : scene.Linked ∅)
    {sources : List OwnerId}
    (known : ∀ id ∈ sources, scene.contains id = true) :
    {id | scene.withinAny sources id = true}.ncard =
      ((scene.topLevel sources).flatMap scene.subtree).length := by
  rw [setOf_withinAny linked known, ← List.coe_toFinset, Set.ncard_coe_finset,
    List.toFinset_card_of_nodup (nodup_members linked sources)]

theorem members_ne_nil
    (linked : scene.Linked ∅)
    {sources : List OwnerId}
    (known : ∀ id ∈ sources, scene.contains id = true)
    (nonempty : sources ≠ []) :
    (scene.topLevel sources).flatMap scene.subtree ≠ [] := by
  obtain ⟨source, isSource⟩ := List.exists_mem_of_ne_nil sources nonempty
  have copied : source ∈ {id | scene.withinAny sources id = true} :=
    (Scene.withinAny_iff linked.acyclic).2
      ⟨source, isSource, .refl scene source⟩
  rw [setOf_withinAny linked known] at copied
  exact List.ne_nil_of_mem copied

end CopyObjects
end MotionScene
