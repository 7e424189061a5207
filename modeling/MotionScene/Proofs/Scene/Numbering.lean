import MotionScene.Command.Checkpoint
import MotionScene.Proofs.Scene.WellFormed

/-!
# The owners that a scene names

The owners of a scene name themselves, the owners they are linked to, and those
they refer to; the scene names more of them in its lists.  The operations on a
scene find no other owners in it, and name no others but those they are given.
-/

namespace MotionScene

/-- The owner has a number below a bound. -/
def OwnerId.Below (bound : Nat) (id : OwnerId) : Prop :=
  id.number < bound

theorem OwnerId.Below.mono
    {bound later : Nat}
    {id : OwnerId}
    (below : id.Below bound)
    (le : bound ≤ later) :
    id.Below later :=
  Nat.lt_of_lt_of_le below le

namespace Owner

/-- The owners that the properties refer to. -/
def targets (owner : Owner) : List OwnerId :=
  owner.properties.filterMap fun property => property.value.target?

/-- The owner itself, and the owners that it is linked to or refers to. -/
def named (owner : Owner) : List OwnerId :=
  owner.id ::
    (owner.parent.toList ++ owner.children ++ owner.tags ++ owner.targets)

variable {allowed : OwnerId → Prop} {owner : Owner}

theorem forall_mem_named_iff :
    (∀ id ∈ owner.named, allowed id) ↔
      allowed owner.id ∧
        (∀ parent, owner.parent = some parent → allowed parent) ∧
        (∀ id ∈ owner.children, allowed id) ∧ (∀ id ∈ owner.tags, allowed id) ∧
        ∀ id ∈ owner.targets, allowed id := by
  simp only [named, List.forall_mem_cons, List.forall_mem_append,
    Option.mem_toList, and_assoc]

theorem mem_targets_iff {target : OwnerId} :
    target ∈ owner.targets ↔
      ∃ property ∈ owner.properties, property.value.target? = some target := by
  rw [targets, List.mem_filterMap]

theorem mem_or_eq_of_mem_changeFirst
    {name : String}
    {replacement property : Property}
    {properties : List Property}
    (member : property ∈ changeFirst name (fun _ => replacement) properties) :
    property = replacement ∨ property ∈ properties := by
  induction properties with
  | nil => cases member
  | cons head rest inductionHypothesis =>
      simp only [changeFirst] at member
      split at member
      · exact (List.mem_cons.1 member).imp_right (List.mem_cons_of_mem head)
      · rcases List.mem_cons.1 member with rfl | later
        · exact Or.inr List.mem_cons_self
        · exact (inductionHypothesis later).imp_right
            (List.mem_cons_of_mem head)

end Owner

namespace Scene

/-- Every owner that a scene names is allowed. -/
structure Names (scene : Scene) (allowed : OwnerId → Prop) : Prop where
  owners : ∀ id owner, scene.owner? id = some owner →
    ∀ other ∈ owner.named, allowed other
  styles : ∀ id ∈ scene.styles, allowed id
  tools : ∀ id ∈ scene.tools, allowed id
  selection : ∀ id ∈ scene.selection, allowed id

namespace Names

variable {scene : Scene} {allowed : OwnerId → Prop} {id : OwnerId}

theorem mono
    {more : OwnerId → Prop}
    (names : scene.Names allowed)
    (weaker : ∀ id, allowed id → more id) :
    scene.Names more where
  owners id owner found other member :=
    weaker other (names.owners id owner found other member)
  styles id member := weaker id (names.styles id member)
  tools id member := weaker id (names.tools id member)
  selection id member := weaker id (names.selection id member)

/-! ## What is found in a scene -/

theorem owner
    (names : scene.Names allowed)
    {owner : Owner}
    (found : scene.owner? id = some owner) :
    allowed id := by
  rw [← scene.id_of_owner? found]
  exact (Owner.forall_mem_named_iff.1 (names.owners id owner found)).1

theorem known (names : scene.Names allowed) (known : scene.contains id = true) :
    allowed id := by
  obtain ⟨owner, found⟩ := Option.isSome_iff_exists.1 known
  exact names.owner found

theorem category
    (names : scene.Names allowed)
    {category : Category}
    (known : scene.categoryOf id = some category) :
    allowed id := by
  obtain ⟨owner, found, _⟩ := (categoryOf_eq_some_iff scene).1 known
  exact names.owner found

theorem parent
    (names : scene.Names allowed)
    {parent : OwnerId}
    (step : scene.parentOf id = some parent) :
    allowed parent := by
  obtain ⟨owner, found, isParent⟩ := (parentOf_eq_some_iff scene).1 step
  exact (Owner.forall_mem_named_iff.1 (names.owners id owner found)).2.1
    parent isParent

theorem entries (names : scene.Names allowed) (place : Place) :
    ∀ id ∈ scene.entries place, allowed id := by
  cases place with
  | styles => exact names.styles
  | tools => exact names.tools
  | children host =>
      rw [Scene.entries]
      cases found : scene.owner? host with
      | none => exact List.forall_mem_nil _
      | some owner =>
          exact (Owner.forall_mem_named_iff.1
            (names.owners host owner found)).2.2.1
  | tags host =>
      rw [Scene.entries]
      cases found : scene.owner? host with
      | none => exact List.forall_mem_nil _
      | some owner =>
          exact (Owner.forall_mem_named_iff.1
            (names.owners host owner found)).2.2.2.1

/-- A property belongs to an owner, and may refer to another one. -/
theorem property
    (names : scene.Names allowed)
    {address : PropertyAddress}
    {property : Property}
    (found : scene.property address = .ok property) :
    allowed address.owner ∧ ∀ target, property.value.target? = some target →
      allowed target := by
  obtain ⟨owner, known, isFirst⟩ := property_eq_ok_iff.1 found
  refine ⟨names.owner known, fun target refers => ?_⟩
  have targets :=
    (Owner.forall_mem_named_iff.1 (names.owners _ owner known)).2.2.2.2
  exact targets target
    (Owner.mem_targets_iff.2
      ⟨property, List.mem_of_find?_eq_some isFirst, refers⟩)

theorem subtree
    (names : scene.Names allowed)
    {top : OwnerId}
    (isAllowed : allowed top) :
    ∀ id ∈ scene.subtree top, allowed id := by
  have reached : ∀ last, scene.Descends top last → allowed last := by
    intro last descends
    rcases Relation.ReflTransGen.cases_tail descends with rfl | ⟨host, _, child⟩
    · exact isAllowed
    · exact names.entries (.children host) last child
  intro id member
  obtain ⟨last, descends, rfl | tag⟩ := descends_of_mem_subtree member
  · exact reached id descends
  · exact names.entries (.tags last) id tag

theorem topLevel (names : scene.Names allowed) (ids : List OwnerId) :
    ∀ id ∈ scene.topLevel ids, allowed id :=
  fun _ member => names.known (contains_of_mem_topLevel member)

theorem holdersOf (names : scene.Names allowed) (targets : OwnerSet) :
    ∀ reference ∈ scene.holdersOf targets, allowed reference.owner := by
  intro reference member
  obtain ⟨owner, _, found, _⟩ :=
    references_iff.1 (List.mem_of_mem_filter member)
  exact names.owner found

/-! ## Changes of a scene -/

theorem insert
    (names : scene.Names allowed)
    {owner : Owner}
    (named : ∀ id ∈ owner.named, allowed id) :
    (scene.insert owner).Names allowed where
  owners id found isFound := by
    rw [owner?_insert] at isFound
    split at isFound
    · cases isFound
      exact named
    · exact names.owners id found isFound
  styles := names.styles
  tools := names.tools
  selection := names.selection

theorem erase (names : scene.Names allowed) (id : OwnerId) :
    (scene.erase id).Names allowed where
  owners other owner found := by
    rw [owner?_erase] at found
    split at found
    · cases found
    · exact names.owners other owner found
  styles := names.styles
  tools := names.tools
  selection := names.selection

theorem modify
    (names : scene.Names allowed)
    {change : Owner → Owner}
    (kept : ∀ owner, (∀ id ∈ owner.named, allowed id) →
      ∀ id ∈ { change owner with id := owner.id }.named, allowed id) :
    (scene.modify id change).Names allowed where
  owners other owner found := by
    rw [owner?_modify] at found
    split at found
    · obtain ⟨original, known, rfl⟩ := Option.map_eq_some_iff.1 found
      exact kept original (names.owners id original known)
    · exact names.owners other owner found
  styles := names.styles
  tools := names.tools
  selection := names.selection

theorem setParent
    (names : scene.Names allowed)
    (id : OwnerId)
    {parent : Option OwnerId}
    (isAllowed : ∀ host, parent = some host → allowed host) :
    (scene.setParent id parent).Names allowed := by
  refine names.modify fun owner named => ?_
  rw [Owner.forall_mem_named_iff] at named ⊢
  exact ⟨named.1, isAllowed, named.2.2⟩

theorem editEntries
    (names : scene.Names allowed)
    (place : Place)
    {edit : List OwnerId → List OwnerId}
    (kept : ∀ ids : List OwnerId, (∀ id ∈ ids, allowed id) →
      ∀ id ∈ edit ids, allowed id) :
    (scene.editEntries place edit).Names allowed := by
  cases place with
  | children host =>
      refine names.modify fun owner named => ?_
      rw [Owner.forall_mem_named_iff] at named ⊢
      exact ⟨named.1, named.2.1, kept _ named.2.2.1, named.2.2.2⟩
  | tags host =>
      refine names.modify fun owner named => ?_
      rw [Owner.forall_mem_named_iff] at named ⊢
      exact ⟨named.1, named.2.1, named.2.2.1, kept _ named.2.2.2.1,
        named.2.2.2.2⟩
  | styles =>
      exact ⟨names.owners, kept _ names.styles, names.tools, names.selection⟩
  | tools =>
      exact ⟨names.owners, names.styles, kept _ names.tools, names.selection⟩

theorem withProperty
    (names : scene.Names allowed)
    (address : PropertyAddress)
    {property : Property}
    (isAllowed : ∀ target, property.value.target? = some target →
      allowed target) :
    (scene.withProperty address property).Names allowed := by
  refine names.modify fun owner named => ?_
  rw [Owner.forall_mem_named_iff] at named ⊢
  refine ⟨named.1, named.2.1, named.2.2.1, named.2.2.2.1,
    fun target member => ?_⟩
  obtain ⟨other, isProperty, refers⟩ := Owner.mem_targets_iff.1 member
  rcases Owner.mem_or_eq_of_mem_changeFirst isProperty with rfl | kept
  · exact isAllowed target refers
  · exact named.2.2.2.2 target (Owner.mem_targets_iff.2 ⟨other, kept, refers⟩)

theorem store
    (names : scene.Names allowed)
    {name : String}
    {value : Value}
    {stored : Scene}
    (isStored : scene.store id name value = .ok stored)
    (isAllowed : ∀ target, value.target? = some target → allowed target) :
    stored.Names allowed := by
  obtain ⟨property, _, rfl⟩ := modifyProperty_eq_ok_iff.1 isStored
  exact names.withProperty _ isAllowed

theorem detach
    (names : scene.Names allowed)
    {slot : Slot}
    {detached : Scene}
    (isDetached : scene.detach id = .ok (detached, slot)) :
    detached.Names allowed ∧ ∀ host, slot.host? = some host → allowed host := by
  obtain ⟨isSlot, rfl⟩ := detach_eq_ok_iff.1 isDetached
  constructor
  · refine (names.editEntries _ fun ids kept => ?_).setParent id nofun
    exact fun other member => kept other (List.eraseIdx_subset member)
  · intro host isHost
    rw [← Slot.host?_place] at isHost
    obtain ⟨home, _⟩ := slotOf_eq_some_iff.1 isSlot
    exact names.parent (((home?_eq_some_iff scene).1 home).2 host isHost)

theorem attach
    (names : scene.Names allowed)
    {slot : Slot}
    {attached : Scene}
    (isAttached : scene.attach id slot = .ok attached) :
    attached.Names allowed ∧ allowed id ∧ ∀ host, slot.host? = some host →
      allowed host := by
  obtain ⟨check, rfl⟩ := attach_eq_ok_iff.1 isAttached
  obtain ⟨known, hosts, _⟩ := checkAttach_eq_ok_iff.1 check
  have isAllowed := names.category known
  have hostsAllowed : ∀ host, slot.host? = some host → allowed host :=
    fun host isHost => names.category (hosts host isHost)
  refine ⟨(names.editEntries _ fun ids kept => ?_).setParent id hostsAllowed,
    isAllowed, hostsAllowed⟩
  intro other member
  rcases mem_insertAt.1 member with rfl | old
  · exact isAllowed
  · exact kept other old

end Names
end Scene

/-! ## Checkpoints -/

namespace Checkpoint

/-- The owners that a checkpoint remembers, present or absent, and the owners
that they name. -/
def named (checkpoint : Checkpoint) : List OwnerId :=
  checkpoint.owners.flatMap
      (fun (id, owner) => id :: owner.toList.flatMap Owner.named) ++
    checkpoint.styles ++ checkpoint.tools ++ checkpoint.selection.toList

variable {allowed : OwnerId → Prop}

theorem forall_mem_named_iff {checkpoint : Checkpoint} :
    (∀ id ∈ checkpoint.named, allowed id) ↔
      (∀ item ∈ checkpoint.owners, allowed item.1 ∧
        ∀ owner, item.2 = some owner → ∀ id ∈ owner.named, allowed id) ∧
      (∀ id ∈ checkpoint.styles, allowed id) ∧
      (∀ id ∈ checkpoint.tools, allowed id) ∧
      ∀ id ∈ checkpoint.selection, allowed id := by
  simp only [named, List.forall_mem_append, List.forall_mem_flatMap,
    List.forall_mem_cons, Option.mem_toList,
    Std.ExtTreeSet.mem_toList, and_assoc]

end Checkpoint

/-- The owners that a transition remembers on either side. -/
def Transition.named (transition : Transition) : List OwnerId :=
  transition.before.named ++ transition.after.named

namespace Scene.Names

variable {scene : Scene} {allowed : OwnerId → Prop}

theorem capture
    (names : scene.Names allowed)
    {touched : OwnerSet}
    (isAllowed : ∀ id ∈ touched, allowed id) :
    ∀ id ∈ (Checkpoint.capture scene touched).named, allowed id := by
  refine Checkpoint.forall_mem_named_iff.2
    ⟨?_, names.styles, names.tools, names.selection⟩
  simp only [Checkpoint.capture, List.forall_mem_map, Std.ExtTreeSet.mem_toList]
  exact fun id member => ⟨isAllowed id member, names.owners id⟩

theorem restore
    (names : scene.Names allowed)
    {checkpoint : Checkpoint}
    (isAllowed : ∀ id ∈ checkpoint.named, allowed id) :
    (checkpoint.restore scene).Names allowed := by
  obtain ⟨remembered, styles, tools, selection⟩ :=
    Checkpoint.forall_mem_named_iff.1 isAllowed
  suffices ∀ items : List (OwnerId × Option Owner),
      (∀ item ∈ items, ∀ owner, item.2 = some owner →
        ∀ id ∈ owner.named, allowed id) →
        (items.foldl Checkpoint.restoreOwner scene).Names allowed from
    ⟨(this checkpoint.owners fun item member =>
      (remembered item member).2).owners,
      styles, tools, selection⟩
  intro items
  induction items generalizing scene with
  | nil => exact fun _ => names
  | cons item rest inductionHypothesis =>
      intro named
      rw [List.forall_mem_cons] at named
      refine inductionHypothesis ?_ named.2
      obtain ⟨id, _ | owner⟩ := item
      · exact names.erase id
      · exact names.insert (named.1 owner rfl)

end Scene.Names
end MotionScene
