import MotionScene.Command.Addition
import MotionScene.Proofs.Document.Opening
import MotionScene.Proofs.Scene.Listing

/-!
# Adding owners is lawful

Owners are registered and attached one after the other, so after each of them
the scene is whole again.  Whether their references are good can only be told in
the end, when all of them are there.

All of this rests on the owners being different: one that comes twice is
attached twice.
-/

namespace MotionScene
namespace AddOwners

/-- What an addition has to be like: the owners are sound and all different, and
their references respect the filters of their properties where they lead
anywhere. -/
structure Admissible (command : AddOwners) (scene : Scene) : Prop where
  sound : ∀ item ∈ command.items, item.owner.Sound
  distinct : command.ids.Nodup
  allowed : ∀ item ∈ command.items, ∀ property ∈ item.owner.properties,
    ∀ target, property.value.target? = some target → ∀ category,
      (scene.categoryOf target = some category ∨
        ∃ other ∈ command.items,
          other.owner.id = target ∧ other.owner.kind.category = category) →
      property.constraints.allows category = true

/-- Owners as they are made refer to nothing, so they can be added anywhere. -/
theorem admissible_ofKind
    {items : List NewOwner}
    (made : ∀ item ∈ items, ∃ id kind paths,
      item.owner = Owner.ofKind id kind paths)
    (distinct : (items.map fun item => item.owner.id).Nodup)
    (scene : Scene) :
    Admissible { items } scene := by
  refine ⟨?_, distinct, ?_⟩
  · intro item member
    obtain ⟨id, kind, paths, isMade⟩ := made item member
    rw [isMade]
    exact (Owner.ofKind_pristine id kind paths).sound
  · intro item member property isProperty target refers
    obtain ⟨id, kind, paths, isMade⟩ := made item member
    rw [isMade] at isProperty
    rw [(Owner.pristine_of_default kind paths property isProperty).2] at refers
    cases refers

variable {command : AddOwners} {document middle : Document}

/-- The scene is whole, and the owners that remain are all different and still
missing. -/
structure Awaits (rest : List NewOwner) (middle : Document) : Prop where
  linked : middle.scene.Linked ∅
  distinct : (rest.map fun item => item.owner.id).Nodup
  pending : ∀ item ∈ rest, middle.scene.content? item.owner.id = none

/-- What holds while owners are placed; some remain. -/
structure Placing
    (command : AddOwners)
    (document : Document)
    (rest : List NewOwner)
    (middle : Document) : Prop extends Awaits rest middle where
  touches : document.Touches command.touched middle
  numbers : ∀ id, middle.scene.contains id = true → id.number < middle.nextId
  selection : middle.scene.selection = document.scene.selection
  kept : ∀ id content, document.scene.content? id = some content →
    middle.scene.content? id = some content
  known : ∀ id content, middle.scene.content? id = some content →
    document.scene.content? id = some content ∨
      ∃ item ∈ command.items, item.owner.id = id ∧ item.owner.content = content
  listed : ∀ item ∈ rest, item ∈ command.items

theorem mem_touched {item : NewOwner} (member : item ∈ command.items) :
    item.owner.id ∈ command.touched ∧
      ∀ host, item.slot.host? = some host → host ∈ command.touched := by
  have ids : item.owner.id ∈ command.ids := List.mem_map_of_mem member
  constructor
  · simp [touched, ids]
  · intro host belongs
    have hosts : host ∈ command.items.filterMap fun item => item.slot.host? :=
      List.mem_filterMap.2 ⟨item, member, belongs⟩
    simp only [touched, Std.ExtTreeSet.mem_ofList, List.contains_eq_mem,
      List.mem_append, hosts, or_true, decide_true]

/-- The content of all owners once another one is placed. -/
theorem content?_placed (scene : Scene) (item : NewOwner) (id : OwnerId) :
    ((scene.insert (unlinked item.owner)).hung item.owner.id item.slot).content?
        id =
      if item.owner.id = id then some item.owner.content
      else scene.content? id := by
  rw [Scene.content?_hung, Scene.content?_insert]
  rfl

/-- An addition starts with all owners missing. -/
theorem Awaits.start
    (linked : document.scene.Linked ∅)
    (distinct : command.ids.Nodup)
    (absent : command.ids.find? document.scene.contains = none) :
    Awaits command.items document := by
  refine ⟨linked, distinct, ?_⟩
  intro item member
  have missing :=
    List.find?_eq_none.1 absent item.owner.id (List.mem_map_of_mem member)
  rw [Scene.contains_eq_content?] at missing
  simpa using missing

/-- Once an owner is attached, the scene is whole again and the others
remain. -/
theorem Awaits.attached
    {item : NewOwner}
    {rest : List NewOwner}
    (awaits : Awaits (item :: rest) middle)
    (check : (middle.scene.insert (unlinked item.owner)).checkAttach
        item.owner.id item.slot =
      .ok ()) :
    Awaits rest
      { middle.above item.owner.id with
        scene := (middle.scene.insert (unlinked item.owner)).hung item.owner.id
          item.slot } := by
  have absent := awaits.pending item List.mem_cons_self
  obtain ⟨later, distinct⟩ := List.nodup_cons.1 awaits.distinct
  refine ⟨?_, distinct, ?_⟩
  · have inserted : (middle.scene.insert (unlinked item.owner)).Linked
        (∅ ∪ {item.owner.id}) :=
      awaits.linked.insert (Option.map_eq_none_iff.1 absent) rfl
    have hung := inserted.hung (Set.mem_union_right ∅ rfl) check
    rwa [Set.empty_union, Set.sdiff_self] at hung
  · intro other isRest
    rw [content?_placed, if_neg]
    · exact awaits.pending other (List.mem_cons_of_mem item isRest)
    · intro same
      exact later (List.mem_map.2 ⟨other, isRest, same.symm⟩)

/-- Registering and attaching an owner; it stays registered when it cannot be
attached. -/
theorem ends_place
    {item : NewOwner}
    {good : Unit → Document → Prop}
    {bad : Document → Prop}
    (attached : (middle.scene.insert (unlinked item.owner)).checkAttach
        item.owner.id item.slot = .ok () →
      good () { middle.above item.owner.id with
        scene := (middle.scene.insert (unlinked item.owner)).hung
          item.owner.id item.slot })
    (refused : bad { middle.above item.owner.id with
      scene := middle.scene.insert (unlinked item.owner) })
    (full : bad middle) :
    (place item).Ends middle good bad := by
  unfold place
  refine .bind (.reserve (.bind (.scene (.attach ?_ refused))) full)
  intro scene isAttached
  obtain ⟨check, rfl⟩ := Scene.attach_eq_ok_iff.1 isAttached
  exact attached check

/-- Once an owner is attached, the others remain. -/
theorem Placing.attached
    {item : NewOwner}
    {rest : List NewOwner}
    (placing : Placing command document (item :: rest) middle)
    (check : (middle.scene.insert (unlinked item.owner)).checkAttach
        item.owner.id item.slot =
      .ok ()) :
    Placing command document rest
      { middle.above item.owner.id with
        scene := (middle.scene.insert (unlinked item.owner)).hung item.owner.id
          item.slot } := by
  have member := placing.listed item List.mem_cons_self
  have absent := placing.pending item List.mem_cons_self
  obtain ⟨touchedId, touchedHosts⟩ := mem_touched member
  have contents := content?_placed middle.scene item
  constructor
  case toAwaits => exact placing.toAwaits.attached check
  case touches =>
    exact (placing.touches.above item.owner.id).withScene
      ((Scene.SameOutside.insert (unlinked item.owner) touchedId).trans
        (.hung touchedId touchedHosts))
  case numbers =>
    intro id isKnown
    rw [Scene.contains_eq_content?, contents] at isKnown
    split at isKnown
    · next same =>
      subst same
      exact Nat.lt_of_lt_of_le (Nat.lt_succ_self _) (Nat.le_max_right _ _)
    · rw [← Scene.contains_eq_content?] at isKnown
      exact Nat.lt_of_lt_of_le (placing.numbers id isKnown)
        (Nat.le_max_left _ _)
  case selection => exact (Scene.selection_hung).trans placing.selection
  case kept =>
    intro id content found
    have present := placing.kept id content found
    rw [contents, if_neg]
    · exact present
    · rintro rfl
      rw [absent] at present
      cases present
  case known =>
    intro id content found
    rw [contents] at found
    split at found
    · next same => exact Or.inr ⟨item, member, same, Option.some.inj found⟩
    · exact placing.known id content found
  case listed =>
    exact fun other isRest =>
      placing.listed other (List.mem_cons_of_mem item isRest)

/-- What an addition does that remembers nothing yet: nothing, or it is refused,
or all owners are missing and are placed. -/
theorem apply_cases (unused : command.transition = none) (document : Document) :
    command.apply document = .idle command document ∨
      (∃ fault, command.apply document = .failed command document fault) ∨
      command.ids.find? document.scene.contains = none ∧
        command.apply document =
          .first command document command.touched
            (placeAll command.items) fun transition =>
              { command with transition := some transition } := by
  rw [apply, unused]
  simp only
  split
  · exact Or.inl rfl
  · split
    · exact Or.inr (Or.inl ⟨_, rfl⟩)
    · next absent => exact Or.inr (Or.inr ⟨absent, rfl⟩)

theorem contains_of_checkReferences
    {scene : Scene}
    {items : List NewOwner}
    (checked : checkReferences scene items = .ok ())
    {item : NewOwner}
    (member : item ∈ items)
    {property : Property}
    (isProperty : property ∈ item.owner.properties)
    {target : OwnerId}
    (refers : property.value.target? = some target) :
    scene.contains target = true := by
  unfold checkReferences at checked
  split at checked
  · cases checked
  · next good =>
    have reference : (⟨item.owner.id, property.name, target⟩ : Reference) ∈
        items.flatMap fun item => item.owner.references := by
      refine List.mem_flatMap.2
        ⟨item, member, List.mem_filterMap.2 ⟨property, isProperty, ?_⟩⟩
      rw [refers]
      rfl
    simpa using List.find?_eq_none.1 good _ reference

/-- Once all owners are placed and their references lead somewhere, the scene is
sound. -/
theorem Placing.sound
    (placing : Placing command document [] middle)
    (sound : document.scene.Sound)
    (admissible : command.Admissible document.scene)
    (checked : checkReferences middle.scene command.items = .ok ()) :
    middle.scene.Sound := by
  constructor
  · intro id content found
    rcases placing.known id content found with original | ⟨item, member, _, rfl⟩
    · exact sound.owners id content original
    · exact (admissible.sound item member).congr rfl
  · intro id content found property isProperty
    rcases placing.known id content found with original | ⟨item, member, _, rfl⟩
    · refine (sound.references id content original property isProperty).mono ?_
      intro target category isCategory
      rw [Scene.categoryOf_eq_content?] at isCategory ⊢
      obtain ⟨owner, present, same⟩ := Option.map_eq_some_iff.1 isCategory
      exact Option.map_eq_some_iff.2
        ⟨owner, placing.kept target owner present, same⟩
    · intro target refers
      have present :=
        contains_of_checkReferences checked member isProperty refers
      rw [Scene.contains_eq_content?] at present
      obtain ⟨owner, isOwner⟩ := Option.isSome_iff_exists.1 present
      refine ⟨owner.kind.category, ?_, ?_⟩
      · rw [Scene.categoryOf_eq_content?, isOwner]
        rfl
      · refine admissible.allowed item member property isProperty
          target refers _ ?_
        rcases placing.known target owner isOwner with
          original | ⟨other, isOther, same, rfl⟩
        · refine Or.inl ?_
          rw [Scene.categoryOf_eq_content?, original]
          rfl
        · exact Or.inr ⟨other, isOther, same, rfl⟩
  · intro id isSelected
    rw [placing.selection] at isSelected
    have present := sound.selection id isSelected
    rw [Scene.contains_eq_content?] at present ⊢
    obtain ⟨content, found⟩ := Option.isSome_iff_exists.1 present
    rw [placing.kept id content found]
    rfl

/-- Adding new owners that are all different is lawful. -/
theorem lawful
    (wellFormed : document.WellFormed)
    (unused : command.transition = none)
    (admissible : command.Admissible document.scene) :
    Lawful apply revert document (command.apply document) := by
  rcases apply_cases unused document with
    isIdle | ⟨fault, isFailed⟩ | ⟨absent, isFirst⟩
  · rw [isIdle]
    exact .ofIdle command
  · rw [isFailed]
    exact .ofFailed command fault
  · rw [isFirst]
    have start : Placing command document command.items document :=
      ⟨.start wellFormed.linked admissible.distinct absent, .refl _ document,
        wellFormed.numbers, rfl, fun _ _ => id, fun _ _ => Or.inl, fun _ => id⟩
    have round : ∀ item rest middle,
        Placing command document (item :: rest) middle →
        (place item).Ends middle
          (fun _ final => Placing command document rest final)
          (document.Touches command.touched) := by
      intro item rest middle placing
      have touchedId := (mem_touched (placing.listed item List.mem_cons_self)).1
      exact ends_place placing.attached
        ((placing.touches.above item.owner.id).withScene (.insert _ touchedId))
        placing.touches
    refine .first (Nat.le_refl _) (fun _ _ => rfl) (fun _ _ => rfl) (.bind ?_)
    refine (Change.Ends.forM round start).mono ?_
    intro _ middle placing
    refine .consult ?_ placing.touches
    intro _ checked
    exact ⟨placing.touches, Scene.wellFormed_iff.2 ⟨placing.linked,
      placing.sound wellFormed.sound admissible checked⟩, placing.numbers⟩

/-! ## Exclusive ownership -/

/-- Owners that are all different leave a whole scene whole; nothing is asked of
what they hold. -/
theorem linked_of_changed
    (linked : document.scene.Linked ∅)
    (unused : command.transition = none)
    (distinct : command.ids.Nodup)
    (changed : (command.apply document).result = .ok .changed) :
    (command.apply document).state.scene.Linked ∅ := by
  rcases apply_cases unused document with
    isIdle | ⟨fault, isFailed⟩ | ⟨absent, isFirst⟩
  · rw [isIdle]
    exact linked
  · rw [isFailed]
    exact linked
  · rw [isFirst] at changed ⊢
    -- What is left half-way does not matter: the change did not fail.
    have ends : (placeAll command.items).Ends document
        (fun _ final => final.scene.Linked ∅) (fun _ => True) := by
      have start := Awaits.start linked distinct absent
      have round : ∀ item rest middle, Awaits (item :: rest) middle →
          (place item).Ends middle (fun _ final => Awaits rest final)
            (fun _ => True) :=
        fun _ _ _ awaits => ends_place awaits.attached trivial trivial
      refine .bind ((Change.Ends.forM round start).mono ?_)
      intro _ final awaits
      exact .consult (fun _ _ => awaits.linked) trivial
    exact ends.first changed

/-- An addition of different owners keeps ownership exclusive: all lists
together name every owner but the root once, and nothing else. -/
theorem ownership_exclusive
    (tolerable : Scene.Tolerable document.scene.violations)
    (styles : document.scene.styles.Nodup)
    (tools : document.scene.tools.Nodup)
    (unused : command.transition = none)
    (distinct : command.ids.Nodup)
    (changed : (command.apply document).result = .ok .changed) :
    let final := (command.apply document).state.scene
    ∀ id, final.listings.count id =
      if final.contains id = true ∧ id ≠ final.root then 1 else 0 :=
  have linked :=
    (Scene.tolerable_violations_iff.1 tolerable).linked styles tools
  (linked_of_changed linked unused distinct changed).count_listings

/-- An ellipse under the root, an object and a tag on the ellipse, and a
style. -/
def sketch : List NewOwner :=
  [⟨.ofKind ⟨3⟩ (.object .ellipse) {}, .child ⟨1⟩ 0⟩,
    ⟨.ofKind ⟨4⟩ (.object .empty) {}, .child ⟨3⟩ 0⟩,
    ⟨.ofKind ⟨5⟩ (.tag .style) {}, .tag ⟨3⟩ 0⟩,
    ⟨.ofKind ⟨6⟩ .style {}, .style 0⟩]

theorem ownership_exclusive_sketch :
    let final := (apply { items := sketch } (.new ⟨0⟩ {})).state.scene
    final.listings = [⟨3⟩, ⟨4⟩, ⟨5⟩, ⟨6⟩, ⟨2⟩] ∧
      ∀ id, final.listings.count id =
        if final.contains id = true ∧ id ≠ final.root then 1 else 0 :=
  have wellFormed := Document.wellFormed_new ⟨0⟩ {}
  ⟨rfl, ownership_exclusive wellFormed.scene.reported wellFormed.scene.styles
    wellFormed.scene.tools rfl (by decide) rfl⟩

/-- The same new object twice under the root. -/
def twice : List NewOwner :=
  List.replicate 2 ⟨.ofKind ⟨3⟩ (.object .empty) {}, .child ⟨1⟩ 0⟩

/-- An owner that comes twice in an addition is accepted and ends up twice under
its parent. -/
theorem ownership_shared_twice :
    (Document.new ⟨0⟩ {}).WellFormed ∧ (∀ item ∈ twice, item.owner.Made) ∧
      (apply { items := twice } (.new ⟨0⟩ {})).result = .ok .changed ∧
      (apply { items := twice } (.new ⟨0⟩ {})).state.scene.listings.count
          ⟨3⟩ = 2 := by
  refine ⟨Document.wellFormed_new ⟨0⟩ {}, ?_, rfl, rfl⟩
  intro item member
  rw [List.eq_of_mem_replicate member]
  exact .ofKind (by decide) (.object .empty) {}

end AddOwners
end MotionScene
