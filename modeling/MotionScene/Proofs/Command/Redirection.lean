import MotionScene.Proofs.Command.Assignment

/-!
# Redirecting references

Before owners are removed, every reference to one of them from outside is
cleared or turned to an owner that stays.  The references are listed beforehand;
each assignment takes one off the list and adds none, so in the end nothing
outside refers to the owners any more.
-/

namespace MotionScene

namespace Scene

variable {scene : Scene}

/-- Among sound owners, a property is the one of its name. -/
theorem Sound.property_of_mem
    (sound : scene.Sound)
    {id : OwnerId}
    {content : Owner}
    (found : scene.content? id = some content)
    {property : Property}
    (member : property ∈ content.properties) :
    scene.property ⟨id, property.name⟩ = .ok property := by
  obtain ⟨owner, known, rfl⟩ := content?_eq_some_iff.1 found
  exact property_eq_ok_iff.2
    ⟨owner, known, Owner.find?_of_mem (sound.owner known).names member⟩

theorem Sound.mem_references_iff (sound : scene.Sound) {reference : Reference} :
    reference ∈ scene.references ↔
      ∃ property,
        scene.property ⟨reference.owner, reference.property⟩ = .ok property ∧
          property.value.target? = some reference.target := by
  rw [references_iff]
  constructor
  · rintro ⟨owner, property, known, member, named, refers⟩
    refine ⟨property, ?_, refers⟩
    rw [← named]
    exact sound.property_of_mem (content?_of_owner? known) member
  · rintro ⟨property, found, refers⟩
    obtain ⟨owner, known, first⟩ := property_eq_ok_iff.1 found
    exact ⟨owner, property, known, List.mem_of_find?_eq_some first,
      Owner.name_of_find? first, refers⟩

theorem mem_holdersOf {targets : OwnerSet} {reference : Reference} :
    reference ∈ scene.holdersOf targets ↔
      reference ∈ scene.references ∧ reference.target ∈ targets ∧
        reference.owner ∉ targets := by
  simp [holdersOf]

/-- Nothing outside a set of owners refers to one of them. -/
def Unreferenced (scene : Scene) (targets : OwnerSet) : Prop :=
  ∀ address property target, scene.property address = .ok property →
    property.value.target? = some target → target ∈ targets →
    address.owner ∈ targets

/-- Links are no part of what refers to what. -/
theorem Unreferenced.congr
    {other : Scene}
    {targets : OwnerSet}
    (unreferenced : scene.Unreferenced targets)
    (contents : ∀ id, other.content? id = scene.content? id) :
    other.Unreferenced targets := by
  intro address property target found refers inside
  refine unreferenced address property target ?_ refers inside
  rw [property_eq_ok_iff_content, ← contents, ← property_eq_ok_iff_content]
  exact found

/-- Owners that nothing else refers to may be erased. -/
theorem Erases.sound
    {other : Scene}
    {targets : OwnerSet}
    (erases : scene.Erases other {id | id ∈ targets})
    (sound : scene.Sound)
    (unreferenced : scene.Unreferenced targets)
    (selection : ∀ id ∈ other.selection,
      scene.contains id = true ∧ id ∉ targets) :
    other.Sound := by
  have originally : ∀ id content, other.content? id = some content →
      id ∉ targets ∧ scene.content? id = some content := by
    intro id content found
    have isKept : id ∉ targets := by
      intro isGone
      rw [content?, erases.lost id isGone] at found
      cases found
    rw [content?, erases.kept id isKept] at found
    exact ⟨isKept, found⟩
  constructor
  · intro id content found
    exact sound.owners id content (originally id content found).2
  · intro id content found property member target refers
    obtain ⟨isKept, original⟩ := originally id content found
    obtain ⟨category, known, allowed⟩ :=
      sound.references id content original property member target refers
    refine ⟨category, ?_, allowed⟩
    rw [erases.categoryOf_kept]
    · exact known
    · intro isGone
      exact isKept (unreferenced _ property target
        (sound.property_of_mem original member) refers isGone)
  · intro id isSelected
    obtain ⟨known, isKept⟩ := selection id isSelected
    rw [contains, erases.kept id isKept]
    exact known

end Scene

theorem Value.kind_of_target?
    {value : Value}
    {target : OwnerId}
    (refers : value.target? = some target) :
    value.kind = .reference := by
  cases value <;> cases refers
  rfl

namespace Reference

/-- Where a reference is held. -/
def address (reference : Reference) : PropertyAddress :=
  ⟨reference.owner, reference.property⟩

end Reference

/-- Of an owner outside a set, the listed properties are those that refer into
the set. -/
theorem Scene.Sound.holds_iff
    {scene : Scene}
    (sound : scene.Sound)
    {targets : OwnerSet}
    {id : OwnerId}
    {owner : Owner}
    (found : scene.owner? id = some owner)
    (outside : id ∉ targets)
    {property : Property}
    (member : property ∈ owner.properties) :
    ⟨id, property.name⟩ ∈ (scene.holdersOf targets).map Reference.address ↔
      property.value.target?.any (fun target => target ∈ targets) = true := by
  have isProperty : scene.property ⟨id, property.name⟩ = .ok property :=
    sound.property_of_mem (content?_of_owner? found) member
  simp only [List.mem_map, mem_holdersOf, sound.mem_references_iff,
    Option.any_eq_true, decide_eq_true_eq]
  constructor
  · rintro ⟨⟨holder, name, target⟩, ⟨⟨other, isOther, refers⟩, inside, _⟩, same⟩
    cases same
    rw [isProperty] at isOther
    cases isOther
    exact ⟨target, refers, inside⟩
  · rintro ⟨target, refers, inside⟩
    exact ⟨⟨id, property.name, target⟩,
      ⟨⟨property, isProperty, refers⟩, inside, outside⟩, rfl⟩

variable {touched : OwnerSet} {document middle : Document} {targets : OwnerSet}
  {new : Option OwnerId}

/-- Where a property was given another reference, what refers to an owner refers
to the new one or is another property, and is as it was. -/
theorem Scene.property_redirected
    {scene : Scene}
    {address other : PropertyAddress}
    {original property : Property}
    {target : OwnerId}
    (found : scene.property address = .ok original)
    (isOther :
      (scene.withProperty address
        { original with value := .reference new }).property
      other = .ok property)
    (refers : property.value.target? = some target) :
    new = some target ∨ other ≠ address ∧
      scene.property other = .ok property := by
  have named := Scene.name_of_property found
  by_cases same : other = address
  · subst same
    rw [property_withProperty
      { original with value := .reference new } named found] at isOther
    cases isOther
    exact Or.inl refers
  · rw [property_withProperty_of_ne
      { original with value := .reference new } named same] at isOther
    exact Or.inr ⟨same, isOther⟩

/-- What holds while references to some owners are turned elsewhere; some
remain. -/
structure Redirecting
    (touched : OwnerSet)
    (document : Document)
    (targets : OwnerSet)
    (new : Option OwnerId)
    (rest : List Reference)
    (middle : Document) : Prop where
  touches : document.Touches touched middle
  numbers : middle.nextId = document.nextId
  links : document.scene.SameLinks middle.scene
  sound : middle.scene.Sound
  selection : middle.scene.selection = document.scene.selection
  held : ∀ reference ∈ rest, reference.owner ∈ touched ∧
    ∃ property, middle.scene.property reference.address = .ok property ∧
      property.kind = .reference ∧
      middle.scene.Permits property.constraints (.reference new)
  remaining : ∀ address property target,
    middle.scene.property address = .ok property →
    property.value.target? = some target → target ∈ targets →
    address.owner ∉ targets → ⟨address.owner, address.property, target⟩ ∈ rest
  origin : ∀ address property target,
    middle.scene.property address = .ok property →
    property.value.target? = some target → new = some target ∨
      ∃ original, document.scene.property address = .ok original ∧
        original.value.target? = some target

namespace Redirecting

/-- At the start, all references from outside remain. -/
theorem start
    (sound : document.scene.Sound)
    (holders : ∀ reference ∈ document.scene.holdersOf targets,
      reference.owner ∈ touched)
    (permits : ∀ reference ∈ document.scene.holdersOf targets, ∀ property,
      document.scene.property reference.address = .ok property →
      document.scene.Permits property.constraints (.reference new)) :
    Redirecting touched document targets new
      (document.scene.holdersOf targets) document where
  touches := .refl touched document
  numbers := rfl
  links := .refl document.scene
  sound := sound
  selection := rfl
  held reference member := by
    refine ⟨holders reference member, ?_⟩
    obtain ⟨property, found, refers⟩ :=
      sound.mem_references_iff.1 (Scene.mem_holdersOf.1 member).1
    refine ⟨property, found, ?_, permits reference member property found⟩
    rw [← (sound.of_property found).1.value_kind]
    exact Value.kind_of_target? refers
  remaining address property target found refers inside outside :=
    Scene.mem_holdersOf.2
      ⟨sound.mem_references_iff.2 ⟨property, found, refers⟩, inside, outside⟩
  origin address property target found refers :=
    Or.inr ⟨property, found, refers⟩

/-- One more reference is turned elsewhere. -/
theorem stored
    {reference : Reference}
    {rest : List Reference}
    (elsewhere : ∀ target, new = some target → target ∉ targets)
    (redirecting : Redirecting touched document targets new
      (reference :: rest) middle)
    {property : Property}
    (found : middle.scene.property reference.address = .ok property) :
    Redirecting touched document targets new rest
      { middle with
        scene := middle.scene.withProperty reference.address
          { property with value := .reference new } } := by
  obtain ⟨isTouched, original, known, kind, permits⟩ :=
    redirecting.held reference List.mem_cons_self
  obtain rfl : original = property := by
    rw [known] at found
    exact Except.ok.inj found
  have named := Scene.name_of_property found
  have categories : ∀ id, (middle.scene.withProperty reference.address
      { original with value := .reference new }).categoryOf id =
        middle.scene.categoryOf id :=
    Scene.sameLinks_withProperty.category
  constructor
  case touches => exact redirecting.touches.withScene (.modify isTouched _)
  case numbers => exact redirecting.numbers
  case links => exact redirecting.links.trans Scene.sameLinks_withProperty
  case sound =>
    have isSound := (redirecting.sound.of_property found).1
    exact redirecting.sound.withProperty
      { original with value := .reference new } named
      ⟨kind.symm, isSound.track_fits⟩ permits
  case selection => exact redirecting.selection
  case held =>
    intro other isRest
    obtain ⟨otherTouched, held, isHeld, heldKind, heldPermits⟩ :=
      redirecting.held other (List.mem_cons_of_mem reference isRest)
    refine ⟨otherTouched, ?_⟩
    by_cases same : other.address = reference.address
    · rw [same] at isHeld ⊢
      refine ⟨_,
        Scene.property_withProperty
          { original with value := .reference new } named found,
        kind, permits.mono ?_⟩
      exact fun id category isCategory => (categories id).trans isCategory
    · rw [Scene.property_withProperty_of_ne
        { original with value := .reference new } named same]
      refine ⟨held, isHeld, heldKind, heldPermits.mono ?_⟩
      exact fun id category isCategory => (categories id).trans isCategory
  case remaining =>
    intro address other target isOther refers inside outside
    rcases Scene.property_redirected found isOther refers with
      isNew | ⟨differs, isOther⟩
    · exact absurd inside (elsewhere target isNew)
    · have listed :=
        redirecting.remaining address other target isOther refers inside outside
      rcases List.mem_cons.1 listed with hit | isRest
      · subst hit
        exact absurd rfl differs
      · exact isRest
  case origin =>
    intro address other target isOther refers
    rcases Scene.property_redirected found isOther refers with
      isNew | ⟨_, isOther⟩
    · exact Or.inl isNew
    · exact redirecting.origin address other target isOther refers

/-- Turning all references elsewhere, one after the other. -/
theorem run
    (elsewhere : ∀ target, new = some target → target ∉ targets)
    {references : List Reference}
    (redirecting : Redirecting touched document targets new references middle) :
    (references.forM fun reference =>
      Change.assign reference (.reference new)).Ends middle
      (fun _ final => Redirecting touched document targets new [] final)
      (document.Touches touched) := by
  refine .forM ?_ redirecting
  intro reference rest middle redirecting
  refine .assign ?_ redirecting.touches
  intro stored isStored
  obtain ⟨property, found, rfl⟩ := Scene.store_eq_ok_iff.1 isStored
  exact redirecting.stored elsewhere found

/-- In the end nothing outside refers to the owners. -/
theorem unreferenced
    (redirecting : Redirecting touched document targets new [] middle) :
    middle.scene.Unreferenced targets := by
  intro address property target found refers inside
  by_contra outside
  have remains :=
    redirecting.remaining address property target found refers inside outside
  cases remains

end Redirecting
end MotionScene
