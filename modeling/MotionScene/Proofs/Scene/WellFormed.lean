import MotionScene.Proofs.Scene.Content
import MotionScene.Proofs.Scene.Walking

/-!
# Well-formed scenes

A scene is well-formed when validation reports nothing but values out of range,
and the lists of styles and tools and the names of properties repeat nothing.
This is so exactly when every owner stands in the one place where it belongs and
the content of all owners is sound.
-/

namespace MotionScene

namespace Fault

/-- The fault is a value outside the constraints of its property. -/
def isRange : Fault → Bool
  | outOfRange _ _ => true
  | _ => false

end Fault

namespace Scene

variable {scene : Scene}

/-- Only values out of range are reported. -/
def Tolerable (faults : List Fault) : Prop :=
  ∀ fault ∈ faults, fault.isRange = true

/-- Validation reports at most values out of range, and nothing is repeated in
the lists of styles and tools and among the names of the properties of an
owner. -/
structure WellFormed (scene : Scene) : Prop where
  reported : Tolerable scene.violations
  styles : scene.styles.Nodup
  tools : scene.tools.Nodup
  names : ∀ id owner, scene.owner? id = some owner →
    (owner.properties.map Property.name).Nodup

/-! ## What each check demands -/

@[simp] theorem tolerable_nil : Tolerable [] := by
  simp [Tolerable]

@[simp] theorem tolerable_append {first second : List Fault} :
    Tolerable (first ++ second) ↔ Tolerable first ∧ Tolerable second := by
  simp [Tolerable, or_imp, forall_and]

@[simp] theorem tolerable_flatMap
    {α : Type}
    {items : List α}
    {check : α → List Fault} :
    Tolerable (items.flatMap check) ↔
      ∀ item ∈ items, Tolerable (check item) := by
  simp only [Tolerable, List.mem_flatMap, forall_exists_index, and_imp]
  exact ⟨fun all item member fault => all fault item member,
    fun all fault item member => all item member fault⟩

theorem tolerable_require
    {holds : Bool}
    {fault : Fault}
    (grave : fault.isRange = false) :
    Tolerable (require holds fault) ↔ holds = true := by
  cases holds <;> simp [require, Tolerable, grave]

@[simp] theorem tolerable_requireValid {holds : Bool} {detail : String} :
    Tolerable (requireValid holds detail) ↔ holds = true :=
  tolerable_require rfl

theorem mem_toList_iff {owner : Owner} :
    owner ∈ scene.owners.toList ↔ scene.owner? owner.id = some owner :=
  Registry.mem_toList

/-- The listed owners are the registered ones. -/
theorem forall_mem_toList {demand : Owner → Prop} :
    (∀ owner ∈ scene.owners.toList, demand owner) ↔
      ∀ id owner, scene.owner? id = some owner → demand owner := by
  constructor
  · intro all id owner found
    refine all owner (mem_toList_iff.2 ?_)
    rw [scene.id_of_owner? found]
    exact found
  · intro all owner member
    exact all owner.id owner (mem_toList_iff.1 member)

theorem tolerable_checkLink
    {sort : String}
    {fits : OwnerKind → Bool}
    {holder id : OwnerId} :
    Tolerable (scene.checkLink sort fits holder id) ↔
      ∃ owner, scene.owner? id = some owner ∧ fits owner.kind = true ∧
        owner.parent = some holder := by
  unfold checkLink
  cases scene.owner? id with
  | none => simp [Tolerable, Fault.isRange]
  | some owner => simp

theorem lists_eq_true_iff {holder id : OwnerId} :
    scene.lists holder id = true ↔
      id ∈ scene.entries (.children holder) ∨
        id ∈ scene.entries (.tags holder) := by
  unfold lists entries
  cases found : scene.owner? holder <;> simp [found]

theorem tolerable_checkParent {owner : Owner} :
    Tolerable (scene.checkParent owner) ↔
      ∀ parent, owner.parent = some parent →
        owner.id ∈ scene.entries (.children parent) ∨
          owner.id ∈ scene.entries (.tags parent) := by
  unfold checkParent
  cases owner.parent with
  | none => simp
  | some parent => simp [lists_eq_true_iff]

theorem tolerable_checkReference {property : Property} :
    Tolerable (scene.checkReference property) ↔
      ∀ target, property.value.target? = some target → ∀ category,
        scene.categoryOf target = some category →
          property.constraints.allows category = true := by
  unfold checkReference
  cases property.value.target? with
  | none => simp
  | some target =>
      simp only [Option.some.injEq, forall_eq', categoryOf]
      cases scene.owner? target with
      | none => simp
      | some owner =>
          simp only [Option.map_some, Option.some.injEq, forall_eq']
          exact tolerable_require rfl

theorem tolerable_violation_checkRange {property : Property} {value : Value} :
    Tolerable (violation (property.checkRange value)) := by
  unfold Property.checkRange
  simp only
  split
  · simp [violation]
  · simp [violation, Tolerable, Fault.isRange]

theorem tolerable_violation_check {track : Track} {keyframe : Keyframe} :
    Tolerable (violation (track.check keyframe)) ↔
      track.check keyframe = .ok () := by
  unfold Track.check
  split
  · simp [violation, Tolerable, Fault.isRange]
  · simp only
    split
    · split
      · simp [violation, Tolerable, Fault.isRange]
      · simp [violation]
    · simp [violation]

theorem tolerable_checkTrack
    {owner : OwnerId}
    {property : Property}
    {track : Track} :
    Tolerable (checkTrack owner property track) ↔
      track.Fits ⟨owner, property.name⟩ property.kind := by
  simp only [checkTrack, tolerable_append, tolerable_flatMap,
    tolerable_requireValid,
    tolerable_require (show Fault.isRange (.notAnimatable _) = false from rfl),
    tolerable_violation_check, decide_eq_true_eq]
  constructor
  · rintro ⟨⟨⟨⟨animatable, kind⟩, target⟩, ascending⟩, checked⟩
    exact ⟨animatable, kind, target, ascending, checked⟩
  · intro fits
    exact ⟨⟨⟨⟨fits.animatable, fits.kind_eq⟩, fits.target_eq⟩, fits.ascending⟩,
      fits.checked⟩

theorem tolerable_checkProperty {owner : OwnerId} {property : Property} :
    Tolerable (scene.checkProperty owner property) ↔
      property.Sound owner ∧ Tolerable (scene.checkReference property) := by
  unfold checkProperty
  split
  · next same =>
    simp only [tolerable_append, tolerable_violation_checkRange, true_and]
    rw [and_comm]
    refine and_congr_left fun _ => ?_
    cases found : property.track with
    | none =>
        simp only [Option.map_none, Option.getD_none, tolerable_nil, true_iff]
        exact ⟨same, by simp [found]⟩
    | some track =>
        simp only [Option.map_some, Option.getD_some, tolerable_checkTrack]
        constructor
        · intro fits
          refine ⟨same, ?_⟩
          intro other is_track
          rw [found] at is_track
          cases is_track
          exact fits
        · intro sound
          exact sound.track_fits track found
  · next differs =>
    constructor
    · intro tolerable
      have grave := tolerable _ List.mem_cons_self
      cases grave
    · intro sound
      exact absurd sound.1.value_kind differs

theorem isObject_iff {kind : OwnerKind} :
    kind.isObject = true ↔ kind.category = .object := by
  simp [OwnerKind.isObject]

theorem isTag_iff {kind : OwnerKind} :
    kind.isTag = true ↔ kind.category = .tag := by
  simp [OwnerKind.isTag]

theorem tolerable_checkRoot :
    Tolerable scene.checkRoot ↔
      scene.categoryOf scene.root = some .object ∧
        scene.parentOf scene.root = none := by
  unfold checkRoot categoryOf parentOf
  cases scene.owner? scene.root with
  | none => simp [Tolerable, Fault.isRange]
  | some owner => simp [isObject_iff]

theorem tolerable_checkOwnership :
    Tolerable scene.checkOwnership ↔ scene.links.Nodup := by
  rw [List.nodup_iff_count_le_one]
  simp only [checkOwnership, tolerable_flatMap, tolerable_requireValid,
    decide_eq_true_eq, Std.ExtTreeSet.mem_toList, Std.ExtTreeSet.mem_ofList]
  constructor
  · intro all id
    by_cases member : id ∈ scene.links
    · exact all id (by simpa using member)
    · rw [List.count_eq_zero_of_not_mem member]
      exact Nat.zero_le 1
  · intro all id _
    exact all id

theorem isOf_eq_true_iff {category : Category} {id : OwnerId} :
    scene.isOf category id = true ↔ scene.categoryOf id = some category := by
  unfold isOf categoryOf
  cases scene.owner? id <;> simp

theorem tolerable_checkDangling :
    Tolerable scene.checkDangling ↔
      ∀ reference ∈ scene.references,
        scene.contains reference.target = true := by
  unfold checkDangling
  rw [tolerable_require rfl, List.isEmpty_iff, List.filter_eq_nil_iff]
  simp

theorem tolerable_checkSelection :
    Tolerable scene.checkSelection ↔
      ∀ id ∈ scene.selection, scene.contains id = true := by
  unfold checkSelection
  cases found : scene.selection.toList.find? fun id => !scene.contains id with
  | none =>
      simp only [tolerable_nil, true_iff]
      intro id member
      have known :=
        List.find?_eq_none.1 found id (Std.ExtTreeSet.mem_toList.2 member)
      simpa using known
  | some id =>
      constructor
      · intro tolerable
        have grave := tolerable _ List.mem_cons_self
        cases grave
      · intro all
        have unknown := List.find?_some found
        have member :=
          Std.ExtTreeSet.mem_toList.1 (List.mem_of_find?_eq_some found)
        rw [all id member] at unknown
        cases unknown

/-! ## From the checks to the links -/

theorem tolerable_checkPlace {reachable : List OwnerId} {owner : Owner} :
    Tolerable (scene.checkPlace reachable owner) ↔
      match owner.kind.category with
      | .object | .tag => owner.id ∈ reachable
      | .style => owner.id ∈ scene.styles
      | .tool => owner.id ∈ scene.tools := by
  unfold checkPlace
  cases owner.kind <;> simp [OwnerKind.category]

/-- Everything that validation demands, apart from values within their
ranges. -/
structure Demands (scene : Scene) : Prop where
  root : scene.categoryOf scene.root = some .object ∧
    scene.parentOf scene.root = none
  links : ∀ id owner, scene.owner? id = some owner →
    Tolerable (scene.checkLinks owner)
  properties : ∀ id owner, scene.owner? id = some owner →
    ∀ property ∈ owner.properties,
    property.Sound owner.id ∧ Tolerable (scene.checkReference property)
  ownership : scene.links.Nodup
  places : ∀ id owner, scene.owner? id = some owner →
    Tolerable (scene.checkPlace (scene.subtree scene.root) owner)
  styles : ∀ id ∈ scene.styles, scene.categoryOf id = some .style
  tools : ∀ id ∈ scene.tools, scene.categoryOf id = some .tool
  targets : ∀ reference ∈ scene.references,
    scene.contains reference.target = true
  selection : ∀ id ∈ scene.selection, scene.contains id = true

theorem tolerable_violations_iff :
    Tolerable scene.violations ↔ scene.Demands := by
  simp only [violations, tolerable_append, tolerable_flatMap,
    tolerable_checkRoot, tolerable_checkOwnership, tolerable_checkDangling,
    tolerable_checkSelection, tolerable_checkProperty, forall_mem_toList,
    checkStyles, checkTools, tolerable_requireValid, isOf_eq_true_iff]
  constructor
  · rintro ⟨⟨⟨⟨⟨⟨⟨root, owners⟩, ownership⟩, places⟩, styles⟩, tools⟩, targets⟩,
      selection⟩
    exact ⟨root, fun id owner found => (owners id owner found).1,
      fun id owner found => (owners id owner found).2, ownership, places,
      styles, tools, targets, selection⟩
  · intro demands
    exact ⟨⟨⟨⟨⟨⟨⟨demands.root, fun id owner found =>
      ⟨demands.links id owner found, demands.properties id owner found⟩⟩,
      demands.ownership⟩,
      demands.places⟩, demands.styles⟩, demands.tools⟩, demands.targets⟩,
      demands.selection⟩

namespace Demands

theorem owner_of_mem_children
    {id parent : OwnerId}
    (member : id ∈ scene.entries (.children parent)) :
    ∃ owner, scene.owner? parent = some owner ∧ id ∈ owner.children := by
  cases found : scene.owner? parent with
  | none => simp [entries, found] at member
  | some owner => exact ⟨owner, rfl, by simpa [entries, found] using member⟩

theorem owner_of_mem_tags
    {id object : OwnerId}
    (member : id ∈ scene.entries (.tags object)) :
    ∃ owner, scene.owner? object = some owner ∧ id ∈ owner.tags := by
  cases found : scene.owner? object with
  | none => simp [entries, found] at member
  | some owner => exact ⟨owner, rfl, by simpa [entries, found] using member⟩

theorem of_mem_children
    (demands : scene.Demands)
    {id parent : OwnerId}
    (member : id ∈ scene.entries (.children parent)) :
    scene.categoryOf id = some .object ∧ scene.parentOf id = some parent ∧
      scene.categoryOf parent = some .object := by
  obtain ⟨owner, found, listed⟩ := owner_of_mem_children member
  have links := demands.links parent owner found
  simp only [checkLinks, tolerable_append, tolerable_flatMap,
    tolerable_checkLink, tolerable_requireValid, Bool.or_eq_true,
    isObject_iff] at links
  obtain ⟨⟨⟨⟨children, _⟩, sort⟩, _⟩, _⟩ := links
  obtain ⟨child, known, fits, upward⟩ := children id listed
  rw [scene.id_of_owner? found] at upward
  refine ⟨scene.categoryOf_eq_some_iff.2 ⟨child, known, fits⟩,
    scene.parentOf_eq_some_iff.2 ⟨child, known, upward⟩,
    scene.categoryOf_eq_some_iff.2 ⟨owner, found, ?_⟩⟩
  rcases sort with sort | empty
  · exact sort
  · rw [List.isEmpty_iff] at empty
    rw [empty] at listed
    cases listed

theorem of_mem_tags
    (demands : scene.Demands)
    {id object : OwnerId}
    (member : id ∈ scene.entries (.tags object)) :
    scene.categoryOf id = some .tag ∧ scene.parentOf id = some object := by
  obtain ⟨owner, found, listed⟩ := owner_of_mem_tags member
  have links := demands.links object owner found
  simp only [checkLinks, tolerable_append, tolerable_flatMap,
    tolerable_checkLink, isTag_iff] at links
  obtain ⟨⟨⟨⟨_, tags⟩, _⟩, _⟩, _⟩ := links
  obtain ⟨tag, known, fits, upward⟩ := tags id listed
  rw [scene.id_of_owner? found] at upward
  exact ⟨scene.categoryOf_eq_some_iff.2 ⟨tag, known, fits⟩,
    scene.parentOf_eq_some_iff.2 ⟨tag, known, upward⟩⟩

theorem mem_of_parentOf
    (demands : scene.Demands)
    {id parent : OwnerId}
    (step : scene.parentOf id = some parent) :
    id ∈ scene.entries (.children parent) ∨
      id ∈ scene.entries (.tags parent) := by
  obtain ⟨owner, found, upward⟩ := scene.parentOf_eq_some_iff.1 step
  have links := demands.links id owner found
  simp only [checkLinks, tolerable_append, tolerable_checkParent] at links
  have listed := links.1.2 parent upward
  rwa [scene.id_of_owner? found] at listed

/-- Links to children lead from the root to objects beneath it. -/
theorem of_descends
    (demands : scene.Demands)
    {id : OwnerId}
    (descends : scene.Descends scene.root id) :
    scene.categoryOf id = some .object ∧ scene.Climbs id scene.root := by
  induction descends with
  | refl => exact ⟨demands.root.1, Climbs.refl scene scene.root⟩
  | tail _ link inductionHypothesis =>
      obtain ⟨category, step, _⟩ := demands.of_mem_children link
      exact ⟨category, Climbs.head step inductionHypothesis.2⟩

/-- Objects and tags are reached from the root. -/
theorem reached
    (demands : scene.Demands)
    {id : OwnerId}
    (category : scene.categoryOf id = some .object ∨
      scene.categoryOf id = some .tag) :
    ∃ last, scene.categoryOf last = some .object ∧
      scene.Climbs last scene.root ∧
      (id = last ∨ id ∈ scene.entries (.tags last)) := by
  have member : id ∈ scene.subtree scene.root := by
    rcases category with category | category <;>
    · obtain ⟨owner, found, sort⟩ := scene.categoryOf_eq_some_iff.1 category
      have place := tolerable_checkPlace.1 (demands.places id owner found)
      rw [sort, scene.id_of_owner? found] at place
      exact place
  obtain ⟨last, descends, found⟩ := descends_of_mem_subtree member
  obtain ⟨sort, climbs⟩ := demands.of_descends descends
  exact ⟨last, sort, climbs, found⟩

theorem host_category
    (demands : scene.Demands)
    {id parent : OwnerId}
    (step : scene.parentOf id = some parent) :
    scene.categoryOf parent = some .object := by
  rcases demands.mem_of_parentOf step with child | tag
  · exact (demands.of_mem_children child).2.2
  · -- The owner with the tag was visited, so it is an object.
    have category := (demands.of_mem_tags tag).1
    obtain ⟨last, sort, _, same | listed⟩ := demands.reached (Or.inr category)
    · rw [same, sort] at category
      cases category
    · have above := (demands.of_mem_tags listed).2
      rw [step] at above
      cases above
      exact sort

theorem nodup_lists (demands : scene.Demands) (id : OwnerId) :
    (scene.entries (.children id)).Nodup ∧
      (scene.entries (.tags id)).Nodup := by
  simp only [entries]
  cases found : scene.owner? id with
  | none => exact ⟨List.nodup_nil, List.nodup_nil⟩
  | some owner =>
      have member : owner ∈ scene.owners.toList := by
        rw [mem_toList_iff, scene.id_of_owner? found]
        exact found
      have both := (List.nodup_flatMap.1 demands.ownership).1 owner member
      rw [List.nodup_append] at both
      exact ⟨both.1, both.2.1⟩

theorem linked
    (demands : scene.Demands)
    (styles : scene.styles.Nodup)
    (tools : scene.tools.Nodup) :
    scene.Linked ∅ := by
  have sort : ∀ id parent, scene.parentOf id = some parent →
      scene.categoryOf id = some .object ∨ scene.categoryOf id = some .tag := by
    intro id parent step
    rcases demands.mem_of_parentOf step with child | tag
    · exact Or.inl (demands.of_mem_children child).1
    · exact Or.inr (demands.of_mem_tags tag).1
  constructor
  case root_category => exact demands.root.1
  case root_parent => exact demands.root.2
  case root_fixed => exact Set.notMem_empty _
  case host_category => exact fun id parent => demands.host_category
  case child_category => exact sort
  case loose_parent =>
    exact fun id isLoose => absurd isLoose (Set.notMem_empty id)
  case loose_known =>
    exact fun id isLoose => absurd isLoose (Set.notMem_empty id)
  case nodup =>
    intro place
    cases place with
    | children host => exact (demands.nodup_lists host).1
    | tags host => exact (demands.nodup_lists host).2
    | styles => exact styles
    | tools => exact tools
  case listed =>
    intro place id
    simp only [Set.mem_empty_iff_false, not_false_eq_true, and_true,
      home?_eq_some_iff]
    cases place with
    | children host =>
        simp only [Place.category, Place.host?, Option.some.injEq, forall_eq']
        constructor
        · intro member
          obtain ⟨category, step, _⟩ := demands.of_mem_children member
          exact ⟨category, step⟩
        · rintro ⟨category, step⟩
          rcases demands.mem_of_parentOf step with child | tag
          · exact child
          · rw [(demands.of_mem_tags tag).1] at category
            cases category
    | tags host =>
        simp only [Place.category, Place.host?, Option.some.injEq, forall_eq']
        constructor
        · exact demands.of_mem_tags
        · rintro ⟨category, step⟩
          rcases demands.mem_of_parentOf step with child | tag
          · rw [(demands.of_mem_children child).1] at category
            cases category
          · exact tag
    | styles =>
        simp only [Place.category, Place.host?, reduceCtorEq, false_implies,
          implies_true, and_true]
        refine ⟨demands.styles id, fun category => ?_⟩
        obtain ⟨owner, found, sort⟩ := scene.categoryOf_eq_some_iff.1 category
        have place := tolerable_checkPlace.1 (demands.places id owner found)
        rw [sort, scene.id_of_owner? found] at place
        exact place
    | tools =>
        simp only [Place.category, Place.host?, reduceCtorEq, false_implies,
          implies_true, and_true]
        refine ⟨demands.tools id, fun category => ?_⟩
        obtain ⟨owner, found, sort⟩ := scene.categoryOf_eq_some_iff.1 category
        have place := tolerable_checkPlace.1 (demands.places id owner found)
        rw [sort, scene.id_of_owner? found] at place
        exact place
  case rooted =>
    intro id category
    obtain ⟨last, _, climbs, same | tag⟩ := demands.reached category
    · exact ⟨scene.root, same ▸ climbs, Or.inl rfl⟩
    · exact ⟨scene.root, Climbs.head (demands.of_mem_tags tag).2 climbs,
        Or.inl rfl⟩

theorem sound
    (demands : scene.Demands)
    (names : ∀ id owner, scene.owner? id = some owner →
      (owner.properties.map Property.name).Nodup) :
    scene.Sound := by
  constructor
  case owners =>
    intro id content found
    obtain ⟨owner, known, rfl⟩ := content?_eq_some_iff.1 found
    have links := demands.links id owner known
    simp only [checkLinks, tolerable_append, tolerable_requireValid,
      decide_eq_true_eq] at links
    exact ⟨links.2.symm, names id owner known,
      fun property member =>
        (demands.properties id owner known property member).1⟩
  case references =>
    intro id content found property member target refers
    obtain ⟨owner, known, rfl⟩ := content?_eq_some_iff.1 found
    have listed :
        (⟨owner.id, property.name, target⟩ : Reference) ∈ scene.references := by
      refine List.mem_flatMap.2
        ⟨owner, ?_, List.mem_filterMap.2 ⟨property, member, ?_⟩⟩
      · rw [mem_toList_iff, scene.id_of_owner? known]
        exact known
      · rw [refers]
        rfl
    have exists_target := demands.targets _ listed
    rw [contains_eq_categoryOf] at exists_target
    obtain ⟨category, category_eq⟩ := Option.isSome_iff_exists.1 exists_target
    refine ⟨category, category_eq, ?_⟩
    exact tolerable_checkReference.1
      (demands.properties id owner known property member).2
      target refers category category_eq
  case selection => exact demands.selection

end Demands

/-! ## From the links to the checks -/

theorem references_iff {reference : Reference} :
    reference ∈ scene.references ↔
      ∃ owner property, scene.owner? reference.owner = some owner ∧
        property ∈ owner.properties ∧
        property.name = reference.property ∧
        property.value.target? = some reference.target := by
  simp only [references, Owner.references, List.mem_flatMap, List.mem_filterMap,
    Option.map_eq_some_iff, mem_toList_iff]
  constructor
  · rintro ⟨owner, found, property, member, target, refers, rfl⟩
    exact ⟨owner, property, found, member, rfl, refers⟩
  · rintro ⟨owner, property, found, member, named, refers⟩
    have same := scene.id_of_owner? found
    refine ⟨owner, by rw [same]; exact found, property, member,
      reference.target, refers, ?_⟩
    rw [same, named]

theorem pairwise_id_toList (scene : Scene) :
    scene.owners.toList.Pairwise fun a b => a.id ≠ b.id := by
  have keys := scene.owners.byId.distinct_keys_toList
  rw [Registry.toList, List.pairwise_map]
  refine keys.imp_of_mem ?_
  intro a b memberA memberB differs same
  have keyA := scene.owners.keyed a.1 a.2
    (Std.ExtTreeMap.mem_toList_iff_getElem?_eq_some.1 memberA)
  have keyB := scene.owners.keyed b.1 b.2
    (Std.ExtTreeMap.mem_toList_iff_getElem?_eq_some.1 memberB)
  apply differs
  rw [← keyA, ← keyB, same]
  exact Std.ReflOrd.compare_self

namespace Linked

theorem nodup_links (linked : scene.Linked ∅) : scene.links.Nodup := by
  refine List.nodup_flatMap.2 ⟨?_, ?_⟩
  · intro owner member
    have found := mem_toList_iff.1 member
    have children : scene.entries (.children owner.id) = owner.children := by
      simp [entries, found]
    have tags : scene.entries (.tags owner.id) = owner.tags := by
      simp [entries, found]
    rw [List.nodup_append, ← children, ← tags]
    refine ⟨linked.nodup _, linked.nodup _, ?_⟩
    rintro entry child other tag rfl
    have asChild := ((linked.listed _ entry).1 child).1
    have asTag := ((linked.listed _ entry).1 tag).1
    rw [asChild] at asTag
    cases asTag
  · refine (pairwise_id_toList scene).imp_of_mem ?_
    intro a b memberA memberB differs entry inA inB
    have upwardA := (linked.mem_lists_iff (mem_toList_iff.1 memberA)).1 inA
    have upwardB := (linked.mem_lists_iff (mem_toList_iff.1 memberB)).1 inB
    rw [upwardA] at upwardB
    exact differs (Option.some.inj upwardB)

/-- What an object lists is an owner of the category listed there, and names the
object as its parent. -/
theorem entry_of_mem
    (linked : scene.Linked ∅)
    {place : Place}
    {id host : OwnerId}
    (member : id ∈ scene.entries place)
    (isHost : place.host? = some host) :
    ∃ entry, scene.owner? id = some entry ∧
      entry.kind.category = place.category ∧ entry.parent = some host := by
  obtain ⟨category, upward⟩ :=
    scene.home?_eq_some_iff.1 ((linked.listed place id).1 member).1
  obtain ⟨entry, known, sort⟩ := scene.categoryOf_eq_some_iff.1 category
  obtain ⟨again, knownAgain, parent⟩ :=
    scene.parentOf_eq_some_iff.1 (upward host isHost)
  rw [known] at knownAgain
  cases knownAgain
  exact ⟨entry, known, sort, parent⟩

theorem tolerable_checkLinks
    (linked : scene.Linked ∅)
    {id : OwnerId}
    {owner : Owner}
    (found : scene.owner? id = some owner)
    (sound : owner.Sound) :
    Tolerable (scene.checkLinks owner) := by
  have same := scene.id_of_owner? found
  have children : scene.entries (.children id) = owner.children := by
    simp [entries, found]
  have tags : scene.entries (.tags id) = owner.tags := by simp [entries, found]
  simp only [checkLinks, tolerable_append, tolerable_flatMap,
    tolerable_checkLink, tolerable_requireValid, tolerable_checkParent,
    Bool.or_eq_true, isObject_iff, isTag_iff, decide_eq_true_eq, same]
  refine ⟨⟨⟨⟨?_, ?_⟩, ?_⟩, ?_⟩, sound.geometry_iff.symm⟩
  · intro child member
    rw [← children] at member
    exact linked.entry_of_mem member rfl
  · intro tag member
    rw [← tags] at member
    exact linked.entry_of_mem member rfl
  · by_cases empty : owner.children = []
    · exact Or.inr (by simp [empty])
    · obtain ⟨child, member⟩ := List.exists_mem_of_ne_nil _ empty
      rw [← children] at member
      obtain ⟨host, known, sort⟩ :=
        scene.categoryOf_eq_some_iff.1 (linked.host_of_mem member rfl).2
      rw [found] at known
      cases known
      exact Or.inl sort
  · intro parent upward
    have step : scene.parentOf id = some parent :=
      scene.parentOf_eq_some_iff.2 ⟨owner, found, upward⟩
    exact (linked.mem_of_parentOf step).symm

theorem tolerable_checkPlace
    (linked : scene.Linked ∅)
    {id : OwnerId}
    {owner : Owner}
    (found : scene.owner? id = some owner) :
    Tolerable (scene.checkPlace (scene.subtree scene.root) owner) := by
  have category : scene.categoryOf id = some owner.kind.category :=
    scene.categoryOf_eq_some_iff.2 ⟨owner, found, rfl⟩
  rw [Scene.tolerable_checkPlace, scene.id_of_owner? found]
  have reached : scene.categoryOf id = some .object ∨
      scene.categoryOf id = some .tag → id ∈ scene.subtree scene.root := by
    intro sort
    obtain ⟨top, climbs, rfl | isLoose⟩ := linked.rooted id sort
    · exact linked.mem_subtree_iff.2 climbs
    · exact absurd isLoose (Set.notMem_empty top)
  cases sort : owner.kind.category with
  | object => exact reached (Or.inl (sort ▸ category))
  | tag => exact reached (Or.inr (sort ▸ category))
  | style =>
      refine (linked.listed .styles id).2 ⟨?_, Set.notMem_empty id⟩
      simp [home?, category, sort]
  | tool =>
      refine (linked.listed .tools id).2 ⟨?_, Set.notMem_empty id⟩
      simp [home?, category, sort]

theorem demands (linked : scene.Linked ∅) (sound : scene.Sound) :
    scene.Demands := by
  constructor
  case root => exact ⟨linked.root_category, linked.root_parent⟩
  case links =>
    intro id owner found
    exact linked.tolerable_checkLinks found (sound.owner found)
  case properties =>
    intro id owner found property member
    refine ⟨(sound.owner found).properties property member,
      tolerable_checkReference.2 ?_⟩
    intro target refers category known
    obtain ⟨other, knownAgain, allowed⟩ :=
      sound.references id _
        (content?_of_owner? found) property member target refers
    rw [known] at knownAgain
    cases knownAgain
    exact allowed
  case ownership => exact linked.nodup_links
  case places => exact fun id owner found => linked.tolerable_checkPlace found
  case styles =>
    intro id member
    exact (scene.home?_eq_some_iff.1 ((linked.listed .styles id).1 member).1).1
  case tools =>
    intro id member
    exact (scene.home?_eq_some_iff.1 ((linked.listed .tools id).1 member).1).1
  case targets =>
    intro reference member
    obtain ⟨owner, property, found, among, _, refers⟩ := references_iff.1 member
    obtain ⟨category, known, _⟩ :=
      sound.references _ _ (content?_of_owner? found) property among _ refers
    exact contains_of_categoryOf known
  case selection => exact sound.selection

end Linked

/-- A scene is well-formed when its links are in order and its content is. -/
theorem wellFormed_iff : scene.WellFormed ↔ scene.Linked ∅ ∧ scene.Sound := by
  constructor
  · intro wellFormed
    have demands := tolerable_violations_iff.1 wellFormed.reported
    exact ⟨demands.linked wellFormed.styles wellFormed.tools,
      demands.sound wellFormed.names⟩
  · rintro ⟨linked, sound⟩
    exact ⟨tolerable_violations_iff.2 (linked.demands sound),
      linked.nodup .styles, linked.nodup .tools,
      fun id owner found => (sound.owner found).names⟩

end Scene
end MotionScene
