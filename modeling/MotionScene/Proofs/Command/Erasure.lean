import MotionScene.Proofs.Command.Clearing
import MotionScene.Proofs.Command.Removal
import MotionScene.Proofs.Scene.DepthFirst

/-!
# What a removal leaves

A removal takes away the owners that lie within the listed ones and nothing
else.  The others lose what is gone from their lists, keep the order there, and
no longer refer to it.  Which owners still refer to it before is told
beforehand, from the list as it is given, though the removal looks only at the
topmost owners of the list.
-/

namespace MotionScene

/-- The property when some owners are gone: it does not refer to them. -/
def Property.without (gone : OwnerId → Bool) (property : Property) : Property :=
  if property.value.target?.any gone then property.cleared else property

/-- The owner when some others are gone: it neither lists them nor refers to
them. -/
def Owner.without (gone : OwnerId → Bool) (owner : Owner) : Owner :=
  { owner with
    properties := owner.properties.map (Property.without gone)
    children := owner.children.filter fun id => !gone id
    tags := owner.tags.filter fun id => !gone id }

namespace Scene

variable {scene : Scene}

/-- A scene without some of the owners of another one, and otherwise the
same. -/
structure Loses (scene : Scene) (gone : OwnerId → Bool) (final : Scene) :
    Prop where
  root : final.root = scene.root
  owners : ∀ id, final.owner? id =
    if gone id then none else (scene.owner? id).map (Owner.without gone)
  styles : final.styles = scene.styles.filter fun id => !gone id
  tools : final.tools = scene.tools.filter fun id => !gone id
  selection : ∀ id, id ∈ final.selection ↔
    id ∈ scene.selection ∧ gone id = false

theorem Sound.properties_clear
    (sound : scene.Sound)
    {targets : OwnerSet}
    {id : OwnerId}
    {owner : Owner}
    (found : scene.owner? id = some owner)
    (stays : id ∉ targets) :
    Owner.clearFirst
      (fun name => ⟨id, name⟩ ∈ (scene.holdersOf targets).map Reference.address)
        owner.properties =
      owner.properties.map
        (Property.without fun target => target ∈ targets) := by
  rw [Owner.clearFirst_of_nodup _ (sound.owner found).names]
  refine List.map_congr_left fun property member => ?_
  simp only [Property.without, decide_eq_true_eq,
    sound.holds_iff found stays member]

end Scene

namespace RemoveOwners

variable {scene : Scene} {document cleared middle : Document}
  {top : List OwnerId} {touched : OwnerSet}

/-- While owners are taken out of their slots, the lists lose exactly these. -/
structure Unlisting
    (touched : OwnerSet)
    (cleared : Document)
    (top rest : List OwnerId)
    (middle : Document) : Prop where
  detaching : Detaching touched cleared cleared top rest middle
  entries : ∀ place, middle.scene.entries place =
    (cleared.scene.entries place).filter fun id => id ∈ rest ∨ id ∉ top

theorem Unlisting.start
    (linked : cleared.scene.Linked ∅)
    (distinct : top.Nodup) :
    Unlisting touched cleared top top cleared := by
  refine ⟨⟨.refl _ _, rfl, ?_, fun _ _ => rfl, fun _ => rfl, rfl, fun _ => id,
    distinct⟩, ?_⟩
  · have noneYet : {id | id ∈ top ∧ id ∉ top} = (∅ : Set OwnerId) := by
      ext id
      simp
    rw [noneYet]
    exact linked
  · intro place
    exact (List.filter_eq_self.2 fun id _ => by simp [em (id ∈ top)]).symm

theorem Unlisting.released
    {id : OwnerId}
    {rest : List OwnerId}
    (unlisting : Unlisting touched cleared top (id :: rest) middle)
    (isTouched : id ∈ touched)
    (hosts : ∀ host, cleared.scene.parentOf id = some host → host ∈ touched)
    {slot : Slot}
    (found : middle.scene.slotOf id = some slot) :
    Unlisting touched cleared top rest
      { middle with scene := middle.scene.released id slot } := by
  refine ⟨unlisting.detaching.released isTouched hosts found, fun place => ?_⟩
  have isTop := unlisting.detaching.listed id List.mem_cons_self
  have later := (List.nodup_cons.1 unlisting.detaching.distinct).1
  rw [unlisting.detaching.linked.entries_released found, unlisting.entries,
    List.filter_filter]
  refine List.filter_congr fun other _ => ?_
  by_cases same : other = id
  · simp [same, isTop, later]
  · simp [same]

/-- All of them can be taken out, as each stands in a slot until its turn
comes. -/
theorem Unlisting.run
    (isTouched : ∀ id ∈ top, id ∈ touched)
    (hosts : ∀ id ∈ top, ∀ host, cleared.scene.parentOf id = some host →
      host ∈ touched)
    (known : ∀ id ∈ top, cleared.scene.contains id = true)
    (notRoot : cleared.scene.root ∉ top)
    (unlisting : Unlisting touched cleared top top middle) :
    (top.forM fun id => discard (Change.detach id)).Ends middle
      (fun _ final => Unlisting touched cleared top [] final)
      fun _ => False := by
  refine .forM ?_ unlisting
  intro id rest middle unlisting
  have detaching := unlisting.detaching
  have isTop := detaching.listed id List.mem_cons_self
  have stillKnown : middle.scene.contains id = true := by
    rw [Scene.contains_eq_content?,
      detaching.contents, ← Scene.contains_eq_content?]
    exact known id isTop
  have differs : id ≠ middle.scene.root := by
    rw [detaching.touches.same.root]
    rintro rfl
    exact notRoot isTop
  have fixed : id ∉ {other | other ∈ top ∧ other ∉ id :: rest} :=
    fun isLoose => isLoose.2 List.mem_cons_self
  obtain ⟨slot, found⟩ :=
    detaching.linked.exists_slotOf stillKnown differs fixed
  refine .discard (.succeed (Scene.detach_eq_ok_iff.2 ⟨found, rfl⟩) ?_)
  exact unlisting.released (isTouched id isTop) (hosts id isTop) found

/-- From the list of an owner that stays, or of the scene, only topmost owners
go. -/
theorem mem_closure_iff_top
    (linked : scene.Linked ∅)
    {place : Place}
    (stays : ∀ host, place.host? = some host → host ∉ scene.removalClosure top)
    {id : OwnerId}
    (member : id ∈ scene.entries place) :
    id ∈ scene.removalClosure top ↔ id ∈ top := by
  constructor
  · intro isGone
    obtain ⟨root, isTop, climbs⟩ := linked.mem_removalClosure.1 isGone
    rcases climbs.cases_head with rfl | ⟨parent, step, above⟩
    · exact isTop
    · have home := ((linked.listed place id).1 member).1
      have host :=
        scene.host?_of_home? home step (linked.child_category id parent step)
      exact absurd (linked.mem_removalClosure.2 ⟨root, isTop, above⟩)
        (stays parent host)
  · exact mem_closure_of_top linked

/-- Once the topmost owners are out of their slots and everything beneath them
is erased, the scene has lost what lies within them. -/
theorem Unlisting.loses
    (linked : scene.Linked ∅)
    (sound : scene.Sound)
    (isCleared : cleared.scene =
      scene.clear (scene.holdersOf (scene.removalClosure top)))
    (unlisting : Unlisting touched cleared top [] middle) :
    scene.Loses (fun id => id ∈ scene.removalClosure top)
      (eraseAll middle.scene (scene.removalClosure top)) := by
  have links :=
    scene.sameLinks_clear (scene.holdersOf (scene.removalClosure top))
  have erases :
      middle.scene.Erases (eraseAll middle.scene (scene.removalClosure top))
      {id | id ∈ scene.removalClosure top} := erases_eraseAll _
  have entries : ∀ place,
      (∀ host, place.host? = some host → host ∉ scene.removalClosure top) →
      middle.scene.entries place =
        (scene.entries place).filter fun id =>
          !decide (id ∈ scene.removalClosure top) := by
    intro place stays
    rw [unlisting.entries, isCleared, links.entries]
    refine List.filter_congr fun id member => ?_
    simp [mem_closure_iff_top linked stays member]
  constructor
  case root =>
    rw [erases.root, unlisting.detaching.touches.same.root,
      isCleared, links.root]
  case styles => exact erases.styles.trans (entries .styles nofun)
  case tools => exact erases.tools.trans (entries .tools nofun)
  case selection =>
    intro id
    have kept : middle.scene.selection = scene.selection := by
      rw [unlisting.detaching.selection, isCleared, Scene.clear_eq]
    simp [eraseAll, kept]
  case owners =>
    intro id
    by_cases isGone : id ∈ scene.removalClosure top
    · rw [erases.lost id isGone, if_pos (by simpa using isGone)]
    · have notTop : id ∉ top :=
        fun isTop => isGone (mem_closure_of_top linked isTop)
      have stays : ∀ host, some id = some host →
          host ∉ scene.removalClosure top := by
        rintro host ⟨⟩
        exact isGone
      rw [erases.kept id isGone, if_neg (by simpa using isGone),
        Scene.owner?_eq_content?, unlisting.detaching.contents,
        unlisting.detaching.parents id (Or.inr notTop), isCleared, links.parent,
        entries (.children id) stays, entries (.tags id) stays, Scene.content?,
        Scene.owner?_clear]
      cases found : scene.owner? id with
      | none => rfl
      | some owner =>
          simp only [Option.map_some, sound.properties_clear found isGone,
            Owner.without, Owner.content, Scene.parentOf, Scene.entries, found,
            Option.bind_some, Option.getD_some]

/-- A removal cannot fail once it has begun, and takes away what lies within the
topmost owners. -/
theorem ends_removeAll_losing
    (linked : document.scene.Linked ∅)
    (sound : document.scene.Sound)
    (distinct : top.Nodup)
    (known : ∀ id ∈ top, document.scene.contains id = true)
    (notRoot : document.scene.root ∉ top) :
    (removeAll
      (document.scene.holdersOf (document.scene.removalClosure top)) top
      (document.scene.removalClosure top)).Ends document
      (fun _ final => ∃ scene, final = { document with scene } ∧
        document.scene.Loses
          (fun id => id ∈ document.scene.removalClosure top) scene)
      fun _ => False := by
  refine .bind ((Change.Ends.clear fun reference member =>
    Scene.exists_property_of_mem_references
      (Scene.mem_holdersOf.1 member).1).mono ?_)
  intro _ cleared isCleared
  have links : document.scene.SameLinks cleared.scene := by
    rw [isCleared]
    exact document.scene.sameLinks_clear _
  have start : Unlisting
      (RemoveOwners.touched document.scene top
        (document.scene.removalClosure top) ∅)
      cleared top top cleared :=
    .start (linked.congr links) distinct
  refine .bind ((start.run ?_ ?_ ?_ ?_).mono ?_)
  · exact fun id isTop =>
      mem_touched.2 (Or.inl (Or.inl (mem_closure_of_top linked isTop)))
  · intro id isTop host step
    rw [links.parent] at step
    exact mem_touched.2 (Or.inr ⟨id, isTop, step⟩)
  · intro id isTop
    rw [Scene.contains_eq_categoryOf,
      links.category, ← Scene.contains_eq_categoryOf]
    exact known id isTop
  · rw [links.root]
    exact notRoot
  · intro _ middle unlisting
    refine .scene
      ⟨_, ?_, unlisting.loses linked sound (congrArg Document.scene isCleared)⟩
    rw [unlisting.detaching.touches.only unlisting.detaching.numbers, isCleared]

/-- A list of existing owners without the root is not refused. -/
theorem apply_eq_removeTop
    {command : RemoveOwners}
    (fresh : command.transition = none)
    (linked : document.scene.Linked ∅)
    (nonempty : command.roots ≠ [])
    (known : ∀ id ∈ command.roots, document.scene.contains id = true)
    (notRoot : document.scene.root ∉ command.roots) :
    command.apply document =
      command.removeTop document (document.scene.topLevel command.roots) := by
  have allKnown :
      (command.roots.find? fun id => !document.scene.contains id) = none := by
    rw [List.find?_eq_none]
    intro id member
    simp [known id member]
  have someTop : (document.scene.topLevel command.roots).isEmpty = false := by
    rw [Scene.isEmpty_topLevel linked.acyclic known, List.isEmpty_eq_false_iff]
    exact nonempty
  rw [apply, fresh]
  simp only [allKnown, if_neg notRoot, someTop]
  rfl

/-- Removal does what it announces: it is refused if owners that stay refer to
what goes, with their number, unless it is confirmed; otherwise it takes away
what lies within the listed owners, and nothing else. -/
theorem removes_announced
    {command : RemoveOwners}
    (fresh : command.transition = none)
    (wellFormed : document.scene.WellFormed)
    (nonempty : command.roots ≠ [])
    (known : ∀ id ∈ command.roots, document.scene.contains id = true)
    (notRoot : document.scene.root ∉ command.roots) :
    (command.confirmed = false →
      document.scene.removalConflicts command.roots ≠ 0 →
      command.apply document = .failed command document
        (.danglingReference (document.scene.removalConflicts command.roots))) ∧
      (command.confirmed = true ∨
        document.scene.removalConflicts command.roots = 0 →
        (command.apply document).result = .ok .changed ∧
          ∃ scene, (command.apply document).state = { document with scene } ∧
            document.scene.Loses
              (document.scene.withinAny command.roots) scene) := by
  obtain ⟨linked, sound⟩ := Scene.wellFormed_iff.1 wellFormed
  have closure :
      document.scene.removalClosure (document.scene.topLevel command.roots) =
      document.scene.removalClosure command.roots := by
    rw [Scene.removalClosure_topLevel linked.mem_subtree_iff linked.acyclic,
      List.filter_eq_self.2 known]
  have gone : document.scene.withinAny command.roots = fun id =>
      decide
        (id ∈ document.scene.removalClosure
          (document.scene.topLevel command.roots)) := by
    funext id
    rw [Bool.eq_iff_iff, decide_eq_true_eq, closure, linked.mem_removalClosure]
    exact Scene.withinAny_iff linked.acyclic
  have ends := ends_removeAll_losing linked sound
    (document.scene.nodup_topLevel command.roots)
    (fun id isTop => Scene.contains_of_mem_topLevel isTop)
    (fun isTop => notRoot ((Scene.mem_topLevel_iff linked.acyclic).1 isTop).1.1)
  rw [apply_eq_removeTop fresh linked nonempty known notRoot, gone]
  unfold removeTop Scene.removalConflicts
  rw [← closure]
  constructor
  · intro unconfirmed conflicts
    rw [if_pos (by simpa [unconfirmed, Nat.pos_iff_ne_zero] using conflicts)]
  · intro allowed
    rw [if_neg
      (by simpa [Nat.pos_iff_ne_zero, or_iff_not_imp_right] using allowed)]
    exact ⟨ends.result_first, ends.first ends.result_first⟩

theorem nested_removed :
    let document := Document.unchecked Document.nested {}
    let command : RemoveOwners :=
      { roots := [⟨7⟩, ⟨3⟩, ⟨7⟩], confirmed := true }
    document.scene.WellFormed ∧
      document.scene.removalConflicts command.roots = 1 ∧
      (command.apply document).result = .ok .changed ∧
        ∃ scene, (command.apply document).state = { document with scene } ∧
          document.scene.Loses (document.scene.withinAny command.roots) scene :=
  have wellFormed := Document.wellFormed_nested.scene
  have nonempty : [(⟨7⟩ : OwnerId), ⟨3⟩, ⟨7⟩] ≠ [] := by simp
  ⟨wellFormed, rfl,
    (removes_announced rfl wellFormed nonempty (by decide) (by decide)).2
      (Or.inl rfl)⟩

end RemoveOwners
end MotionScene
