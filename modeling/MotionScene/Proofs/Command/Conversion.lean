import MotionScene.Proofs.Command.Inheritance
import MotionScene.Proofs.Command.Redirection

/-!
# Converting shapes to paths is lawful

A path takes over the lists of the object it replaces, then its slot, then the
references to it; after that nothing lies beneath the object and nothing refers
to it, so it can be erased.  Each replacement leaves a well-formed document, and
leaves what is needed of the objects still to be replaced.
-/

namespace MotionScene
namespace Convert

variable {document middle : Document} {scene other : Scene} {touched : OwnerSet}
  {source id : OwnerId} {path : Owner}

/-! ## Replacing one object -/

/-- The path stands in the place of the object, which is loose and has nothing
beneath it. -/
structure Doubled (scene other : Scene) (source : OwnerId) (path : Owner) :
    Prop where
  ne : path.id ≠ source
  linked : other.Linked {source}
  alone : ∀ id, other.parentOf id ≠ some source
  steps : ∀ id parent, other.parentOf id = some parent →
    parent = path.id ∨ id = path.id ∨ scene.parentOf id = some parent
  contents : ∀ id, other.content? id =
    if path.id = id then some path else scene.content? id
  selection : other.selection = scene.selection

theorem Doubled.categoryOf
    (replacement : Replacement path)
    (doubled : Doubled scene other source path)
    (id : OwnerId) :
    other.categoryOf id =
      if path.id = id then some .object else scene.categoryOf id := by
  rw [Scene.categoryOf_eq_content?, doubled.contents]
  split
  · rw [Option.map_some, replacement.category]
  · rw [← Scene.categoryOf_eq_content?]

theorem Doubled.categoryOf_of_known
    (replacement : Replacement path)
    (absent : scene.categoryOf path.id = none)
    (doubled : Doubled scene other source path)
    {id : OwnerId}
    {category : Category}
    (known : scene.categoryOf id = some category) :
    other.categoryOf id = some category := by
  rw [doubled.categoryOf replacement, if_neg]
  · exact known
  · rintro rfl
    rw [absent] at known
    cases known

theorem Doubled.sound
    (replacement : Replacement path)
    (absent : scene.categoryOf path.id = none)
    (doubled : Doubled scene other source path)
    (sound : scene.Sound) :
    other.Sound := by
  constructor
  · intro id content found
    rw [doubled.contents] at found
    split at found
    · cases found
      exact replacement.sound
    · exact sound.owners id content found
  · intro id content found property member
    rw [doubled.contents] at found
    split at found
    · cases found
      intro target refers
      rw [replacement.silent property member] at refers
      cases refers
    · exact (sound.references id content found property member).mono
        fun _ _ known => doubled.categoryOf_of_known replacement absent known
  · intro id isSelected
    rw [doubled.selection] at isSelected
    have known := sound.selection id isSelected
    rw [Scene.contains_eq_categoryOf] at known ⊢
    obtain ⟨category, isCategory⟩ := Option.isSome_iff_exists.1 known
    rw [doubled.categoryOf_of_known replacement absent isCategory]
    rfl

/-- The path refers to nothing, so every reference was there before. -/
theorem Doubled.property_of_target?
    (replacement : Replacement path)
    (doubled : Doubled scene other source path)
    {address : PropertyAddress}
    {property : Property}
    {target : OwnerId}
    (found : other.property address = .ok property)
    (refers : property.value.target? = some target) :
    scene.property address = .ok property := by
  obtain ⟨content, known, first⟩ := Scene.property_eq_ok_iff_content.1 found
  rw [doubled.contents] at known
  split at known
  · cases known
    rw [replacement.silent property (List.mem_of_find?_eq_some first)] at refers
    cases refers
  · exact Scene.property_eq_ok_iff_content.2 ⟨content, known, first⟩

/-- Attaching the path where the object was. -/
theorem doubled_hung
    {slot : Slot}
    {handed : Scene}
    (linked : scene.Linked ∅)
    (found : scene.slotOf source = some slot)
    (hands : (scene.released source slot).HandsOver handed source path.id)
    (contents : ∀ id, handed.content? id =
      if path.id = id then some path else scene.content? id)
    (selection : handed.selection = scene.selection)
    (check : handed.checkAttach path.id slot = .ok ()) :
    Doubled scene (handed.hung path.id slot) source path := by
  have host := linked.parentOf_of_slotOf found
  have parents : ∀ id, (handed.hung path.id slot).parentOf id =
      if path.id = id then slot.host? else handed.parentOf id :=
    Scene.parentOf_hung (Scene.known_of_check check)
  constructor
  case ne => exact hands.ne
  case linked =>
    have released := linked.released found
    have hung := (hands.linked released).hung (Set.mem_union_right _ rfl) check
    have same : ((∅ ∪ {source}) ∪ {path.id}) \ {path.id} =
        ({source} : Set OwnerId) := by
      ext id
      by_cases isPath : id = path.id
      · simp [isPath, hands.ne]
      · simp [isPath]
    rwa [same] at hung
  case alone =>
    intro id step
    rw [parents] at step
    split at step
    · exact linked.acyclic source source (host.trans step) (.refl scene source)
    · exact hands.parentOf_ne_source id step
  case steps =>
    intro id parent step
    rw [parents] at step
    split at step
    · next same => exact Or.inr (Or.inl same.symm)
    · rw [hands.parent] at step
      obtain ⟨original, originalStep, renamed⟩ := Option.map_eq_some_iff.1 step
      split at renamed
      · exact Or.inl renamed.symm
      · rw [Scene.parentOf_released] at originalStep
        split at originalStep
        · cases originalStep
        · exact Or.inr (Or.inr (renamed ▸ originalStep))
  case contents => exact fun id => (Scene.content?_hung id).trans (contents id)
  case selection => exact Scene.selection_hung.trans selection

/-- What the replacement of one object means for all others. -/
structure Replaced (scene final : Scene) (source path : OwnerId) : Prop where
  categories : ∀ id, final.categoryOf id =
    if source = id then none
    else if path = id then some .object else scene.categoryOf id
  steps : ∀ id parent, final.parentOf id = some parent →
    parent = path ∨ id = path ∨ scene.parentOf id = some parent
  origin : ∀ address property target, final.property address = .ok property →
    property.value.target? = some target → target = path ∨
      ∃ original, scene.property address = .ok original ∧
        original.value.target? = some target

theorem mem_singleton_set {id : OwnerId} :
    id ∈ (Std.ExtTreeSet.ofList [source] : OwnerSet) ↔ id = source := by
  simp only [Std.ExtTreeSet.mem_ofList, List.contains_eq_mem,
    List.mem_singleton, decide_eq_true_eq]

/-- The scene without the object, and with the path selected in its stead. -/
def discarded (scene : Scene) (source path : OwnerId) : Scene :=
  { scene with selection := reselect scene.selection source path }.erase source

theorem erases_discarded (path : OwnerId) :
    scene.Erases (discarded scene source path)
      {id | id ∈ (Std.ExtTreeSet.ofList [source] : OwnerSet)} := by
  constructor
  case root | styles | tools => rfl
  case kept =>
    intro id isKept
    rw [Set.mem_ofPred_eq, mem_singleton_set] at isKept
    exact (Scene.owner?_erase _ source id).trans (if_neg (Ne.symm isKept))
  case lost =>
    intro id isGone
    rw [Set.mem_ofPred_eq, mem_singleton_set] at isGone
    exact (Scene.owner?_erase _ source id).trans (if_pos isGone.symm)

theorem mem_reselect
    {selection : OwnerSet}
    {new : OwnerId}
    (member : id ∈ reselect selection source new) :
    id = new ∨ (id ∈ selection ∧ id ≠ source) := by
  unfold reselect at member
  split at member
  · rcases Std.ExtTreeSet.mem_insert.1 member with same | kept
    · exact Or.inl (Std.LawfulEqOrd.eq_of_compare same).symm
    · obtain ⟨differs, isSelected⟩ := Std.ExtTreeSet.mem_erase.1 kept
      refine Or.inr ⟨isSelected, ?_⟩
      rintro rfl
      exact differs Std.ReflOrd.compare_self
  · next unselected =>
    refine Or.inr ⟨member, ?_⟩
    rintro rfl
    exact unselected member

section Erasing

variable
  (replacement : Replacement path)
  (doubled : Doubled scene other source path)
  (redirecting : Redirecting touched { document with scene := other }
    (Std.ExtTreeSet.ofList [source]) (some path.id) [] middle)
include replacement doubled redirecting

theorem categoryOf_redirected (id : OwnerId) :
    middle.scene.categoryOf id =
      if path.id = id then some .object else scene.categoryOf id :=
  (redirecting.links.category id).trans (doubled.categoryOf replacement id)

/-- Once nothing refers to the object, it can be erased. -/
theorem wellFormed_discarded
    (wellFormed : { document with scene }.WellFormed)
    (number : path.id.number < document.nextId) :
    { middle with
      scene := discarded middle.scene source path.id }.WellFormed := by
  have linked : middle.scene.Linked {source} :=
    doubled.linked.congr redirecting.links
  have categories := categoryOf_redirected replacement doubled redirecting
  have erases : middle.scene.Erases (discarded middle.scene source path.id)
      {id | id ∈ (Std.ExtTreeSet.ofList [source] : OwnerSet)} :=
    erases_discarded path.id
  refine ⟨Scene.wellFormed_iff.2 ⟨erases.linked linked ?_ ?_,
    erases.sound redirecting.sound redirecting.unreferenced ?_⟩, ?_⟩
  · intro id parent step
    simp only [Set.mem_ofPred_eq, mem_singleton_set]
    constructor
    · rintro rfl
      rw [linked.loose_parent id rfl] at step
      cases step
    · rintro rfl
      rw [redirecting.links.parent] at step
      exact absurd step (doubled.alone id)
  · intro id _
    simp only [Set.mem_ofPred_eq, mem_singleton_set, Set.mem_singleton_iff]
  · intro id isSelected
    rw [mem_singleton_set]
    rcases mem_reselect isSelected with rfl | ⟨selected, differs⟩
    · rw [Scene.contains_eq_categoryOf, categories, if_pos rfl]
      exact ⟨rfl, doubled.ne⟩
    · exact ⟨redirecting.sound.selection id selected, differs⟩
  · intro id known
    have isKept :
        id ∉ {id | id ∈ (Std.ExtTreeSet.ofList [source] : OwnerSet)} := by
      intro isGone
      rw [Scene.contains, erases.lost id isGone] at known
      cases known
    rw [Scene.contains_eq_categoryOf, erases.categoryOf_kept isKept, categories]
      at known
    rw [redirecting.numbers]
    split at known
    · next same => exact same ▸ number
    · rw [← Scene.contains_eq_categoryOf] at known
      exact wellFormed.numbers id known

theorem replaced_discarded :
    Replaced scene (discarded middle.scene source path.id) source path.id := by
  have categories := categoryOf_redirected replacement doubled redirecting
  have owners : ∀ id, (discarded middle.scene source path.id).owner? id =
      if source = id then none else middle.scene.owner? id :=
    Scene.owner?_erase { middle.scene with
      selection := reselect middle.scene.selection source path.id } source
  constructor
  case categories =>
    intro id
    rw [← categories, Scene.categoryOf, owners]
    split <;> rfl
  case steps =>
    intro id parent step
    rw [Scene.parentOf, owners] at step
    split at step
    · cases step
    · exact doubled.steps id parent
        ((redirecting.links.parent id).symm.trans step)
  case origin =>
    intro address property target found refers
    have redirected : middle.scene.property address = .ok property := by
      rw [Scene.property_eq_ok_iff, owners] at found
      split at found
      · obtain ⟨owner, missing, _⟩ := found
        cases missing
      · exact Scene.property_eq_ok_iff.2 found
    rcases redirecting.origin address property target redirected refers with
      same | ⟨original, isOriginal, refersOriginally⟩
    · exact Or.inl (Option.some.inj same).symm
    · exact Or.inr ⟨original,
        doubled.property_of_target? replacement isOriginal refersOriginally,
        refersOriginally⟩

end Erasing

/-- What is needed of an object to be replaced: all that its replacement changes
is touched. -/
structure Source (touched : OwnerSet) (scene : Scene) (source : OwnerId) :
    Prop where
  category : scene.categoryOf source = some .object
  member : source ∈ touched
  host : ∀ parent, scene.parentOf source = some parent → parent ∈ touched
  hosted : ∀ id, scene.parentOf id = some source → id ∈ touched
  held : ∀ address property, scene.property address = .ok property →
    property.value.target? = some source → address.owner ∈ touched

/-- Turning the references to the path and erasing the object. -/
theorem ends_takeOver
    (wellFormed : document.WellFormed)
    (isSource : Source touched document.scene source)
    (replacement : Replacement path)
    (absent : document.scene.categoryOf path.id = none)
    (number : path.id.number < document.nextId)
    (doubled : Doubled document.scene other source path)
    (touches : document.Touches touched { document with scene := other }) :
    (do
      let holders ← Change.consult fun scene =>
        .ok (scene.holdersOf (Std.ExtTreeSet.ofList [source]))
      holders.forM fun reference =>
        Change.assign reference (.reference (some path.id))
      Change.scene fun scene =>
        discarded scene source path.id : Change Unit).Ends
      { document with scene := other }
      (fun _ final => document.Touches touched final ∧
        final.nextId = document.nextId ∧
        final.WellFormed ∧ Replaced document.scene final.scene source path.id)
      (document.Touches touched) := by
  have sound : other.Sound := doubled.sound replacement absent wellFormed.sound
  have category :=
    doubled.categoryOf_of_known replacement absent isSource.category
  have refersToSource :
      ∀ reference ∈ other.holdersOf (Std.ExtTreeSet.ofList [source]),
      ∃ property, other.property reference.address = .ok property ∧
        property.value.target? = some source := by
    intro reference member
    obtain ⟨listed, inside, _⟩ := Scene.mem_holdersOf.1 member
    obtain ⟨property, found, refers⟩ := sound.mem_references_iff.1 listed
    rw [mem_singleton_set.1 inside] at refers
    exact ⟨property, found, refers⟩
  refine .bind (.consult ?_ touches)
  intro holders isHolders
  cases isHolders
  have start : Redirecting touched { document with scene := other }
      (Std.ExtTreeSet.ofList [source]) (some path.id)
      (other.holdersOf (Std.ExtTreeSet.ofList [source]))
      { document with scene := other } := by
    refine .start sound ?_ ?_
    · intro reference member
      obtain ⟨property, found, refers⟩ := refersToSource reference member
      exact isSource.held reference.address property
        (doubled.property_of_target? replacement found refers) refers
    · intro reference member property found target isPath
      obtain ⟨same, foundAgain, refers⟩ := refersToSource reference member
      rw [found] at foundAgain
      cases foundAgain
      cases isPath
      obtain ⟨allowedCategory, isCategory, allowed⟩ :=
        (sound.of_property found).2 source refers
      rw [category] at isCategory
      cases isCategory
      refine ⟨.object, ?_, allowed⟩
      rw [doubled.categoryOf replacement, if_pos rfl]
  have elsewhere : ∀ target, some path.id = some target →
      target ∉ (Std.ExtTreeSet.ofList [source] : OwnerSet) := by
    intro target isPath inside
    cases isPath
    exact doubled.ne (mem_singleton_set.1 inside)
  refine .bind
    (((start.run elsewhere).worsen fun _ onward =>
      touches.trans onward).mono ?_)
  intro _ middle redirecting
  refine .scene ⟨(touches.trans redirecting.touches).withScene ?_,
    redirecting.numbers,
    wellFormed_discarded replacement doubled redirecting wellFormed number,
    replaced_discarded replacement doubled redirecting⟩
  exact ⟨rfl, (Scene.SameOutside.erase isSource.member).owners⟩

/-- A path takes over the lists and the slot of an object; what comes next
starts from there. -/
theorem ends_standIn
    (wellFormed : document.WellFormed)
    (isSource : Source touched document.scene source)
    (replacement : Replacement path)
    (pathTouched : path.id ∈ touched)
    (absent : document.scene.categoryOf path.id = none)
    {next : Change Unit}
    {good : Unit → Document → Prop}
    (onward : ∀ slot handed, document.scene.slotOf source = some slot →
      (document.scene.released source slot).HandsOver handed source path.id →
      (∀ id, handed.content? id =
        if path.id = id then some path else document.scene.content? id) →
      handed.selection = document.scene.selection →
      handed.checkAttach path.id slot = .ok () →
      document.Touches touched
          { document with scene := handed.hung path.id slot } →
      next.Ends { document with scene := handed.hung path.id slot } good
        (document.Touches touched)) :
    (do
      let slot ← Change.detach source
      let content ← Change.consult fun scene => scene.owner source
      Change.scene fun scene => emptied scene source
      (content.children ++ content.tags).forM (setParent path.id)
      Change.scene fun scene =>
        scene.insert
          { path with children := content.children, tags := content.tags }
      Change.attach path.id slot
      next : Change Unit).Ends document good (document.Touches touched) := by
  have linked := wellFormed.linked
  refine .bind (.detach ?_ (.refl touched document))
  intro detached slot isDetached
  obtain ⟨found, rfl⟩ := Scene.detach_eq_ok_iff.1 isDetached
  have slotHost := linked.parentOf_of_slotOf found
  have hosts : ∀ host, slot.host? = some host → host ∈ touched :=
    fun host belongs => isSource.host host (slotHost.trans belongs)
  have released := linked.released found
  have touchesReleased : document.Touches touched
      { document with scene := document.scene.released source slot } :=
    (Document.Touches.refl touched document).withScene
      (.released isSource.member hosts)
  refine .bind (.consult ?_ touchesReleased)
  intro owner isOwner
  have known := Scene.owner_eq_ok_iff.1 isOwner
  have touchesEmptied : document.Touches touched
      { document with
        scene := emptied (document.scene.released source slot) source } :=
    touchesReleased.withScene (.modify isSource.member _)
  refine .bind (.scene (.bind (((Handing.run path.id ?_).worsen
    fun _ onward => touchesEmptied.trans onward).mono ?_)))
  · intro id member
    have step := (released.mem_lists_iff known).1 member
    rw [Scene.parentOf_released] at step
    split at step
    · cases step
    · exact isSource.hosted id step
  intro _ handed handing
  obtain ⟨handed, rfl⟩ : ∃ scene, handed = { document with scene } :=
    ⟨handed.scene, handing.touches.only handing.numbers⟩
  have hands := handing.handsOver released known
    ((Scene.categoryOf_released _).trans absent) replacement
  have contents : ∀ id, (handed.insert
      { path with
        children := owner.children, tags := owner.tags }).content? id =
        if path.id = id then some path else document.scene.content? id := by
    intro id
    rw [Scene.content?_insert, handing.contents, Scene.content?_eq_stem?,
      stem?_emptied, ← Scene.content?_eq_stem?, Scene.content?_released]
    split
    · exact congrArg some replacement.unlinked
    · rfl
  have touchesHanded := (touchesEmptied.trans handing.touches).withScene
    (.insert { path with
      children := owner.children, tags := owner.tags } pathTouched)
  refine .bind (.scene (.bind (.attach ?_ touchesHanded)))
  intro attached isAttached
  obtain ⟨check, rfl⟩ := Scene.attach_eq_ok_iff.1 isAttached
  have selectionReleased : (document.scene.released source slot).selection =
      document.scene.selection := Scene.selection_released
  have selection : handed.selection = document.scene.selection :=
    handing.selection.trans selectionReleased
  exact onward slot _ found hands contents selection check
    (touchesHanded.withScene (.hung pathTouched hosts))

/-- Replacing one object stays within the touched owners, and ends in a
well-formed document. -/
theorem ends_replaceOne
    (wellFormed : document.WellFormed)
    (isSource : Source touched document.scene source)
    (replacement : Replacement path)
    (pathTouched : path.id ∈ touched)
    (absent : document.scene.categoryOf path.id = none)
    (number : path.id.number < document.nextId) :
    (replaceOne source path).Ends document
      (fun _ final => document.Touches touched final ∧
        final.nextId = document.nextId ∧
        final.WellFormed ∧ Replaced document.scene final.scene source path.id)
      (document.Touches touched) := by
  refine ends_standIn wellFormed isSource replacement pathTouched absent ?_
  intro slot handed found hands contents selection check touches
  exact ends_takeOver wellFormed isSource replacement absent number
    (doubled_hung wellFormed.linked found hands contents selection check)
    touches

/-! ## Replacing all objects -/

/-- Another object is left as it is needed. -/
theorem Source.replaced
    {final : Scene}
    {pathId : OwnerId}
    (isSource : Source touched scene source)
    (pathTouched : pathId ∈ touched)
    (absent : scene.categoryOf pathId = none)
    (differs : id ≠ source)
    (replaced : Replaced scene final id pathId) :
    Source touched final source := by
  have notPath : source ≠ pathId := by
    rintro rfl
    rw [isSource.category] at absent
    cases absent
  constructor
  case category =>
    rw [replaced.categories, if_neg differs, if_neg notPath.symm]
    exact isSource.category
  case member => exact isSource.member
  case host =>
    intro parent step
    rcases replaced.steps source parent step with rfl | isPath | original
    · exact pathTouched
    · exact absurd isPath notPath
    · exact isSource.host parent original
  case hosted =>
    intro other step
    rcases replaced.steps other source step with isPath | rfl | original
    · exact absurd isPath notPath
    · exact pathTouched
    · exact isSource.hosted other original
  case held =>
    intro address property found refers
    rcases replaced.origin address property source found refers with
      isPath | ⟨original, isOriginal, refersOriginally⟩
    · exact absurd isPath notPath
    · exact isSource.held address original isOriginal refersOriginally

/-- What holds while objects are replaced; some remain. -/
structure Replacing
    (touched : OwnerSet)
    (document : Document)
    (rest : List (OwnerId × Owner))
    (middle : Document) : Prop where
  touches : document.Touches touched middle
  numbers : middle.nextId = document.nextId
  wellFormed : middle.WellFormed
  sources : ∀ pair ∈ rest, Source touched middle.scene pair.1
  paths : ∀ pair ∈ rest, Replacement pair.2 ∧ pair.2.id ∈ touched ∧
    pair.2.id.number < document.nextId ∧
    middle.scene.categoryOf pair.2.id = none
  distinctSources : (rest.map Prod.fst).Nodup
  distinctPaths : (rest.map fun pair => pair.2.id).Nodup

/-- One more object is replaced. -/
theorem Replacing.replaceOne
    {pair : OwnerId × Owner}
    {rest : List (OwnerId × Owner)}
    (replacing : Replacing touched document (pair :: rest) middle) :
    (replaceOne pair.1 pair.2).Ends middle
      (fun _ final => Replacing touched document rest final)
      (document.Touches touched) := by
  obtain ⟨replacement, pathTouched, number, absent⟩ :=
    replacing.paths pair List.mem_cons_self
  obtain ⟨otherSources, distinctSources⟩ :=
    List.nodup_cons.1 replacing.distinctSources
  obtain ⟨otherPaths, distinctPaths⟩ :=
    List.nodup_cons.1 replacing.distinctPaths
  refine ((ends_replaceOne replacing.wellFormed
    (replacing.sources pair List.mem_cons_self)
    replacement pathTouched absent (replacing.numbers ▸ number)).worsen
    fun _ onward => replacing.touches.trans onward).mono ?_
  rintro _ final ⟨touches, numbers, wellFormed, replaced⟩
  constructor
  case touches => exact replacing.touches.trans touches
  case numbers => exact numbers.trans replacing.numbers
  case wellFormed => exact wellFormed
  case sources =>
    intro other member
    refine (replacing.sources other (List.mem_cons_of_mem pair member)).replaced
      pathTouched absent ?_ replaced
    intro same
    exact otherSources (same ▸ List.mem_map_of_mem member)
  case paths =>
    intro other member
    obtain ⟨isReplacement, isTouched, below, missing⟩ :=
      replacing.paths other (List.mem_cons_of_mem pair member)
    refine ⟨isReplacement, isTouched, below, ?_⟩
    rw [replaced.categories]
    split
    · rfl
    · rw [if_neg]
      · exact missing
      · intro same
        exact otherPaths (List.mem_map.2 ⟨other, member, same.symm⟩)
  case distinctSources => exact distinctSources
  case distinctPaths => exact distinctPaths

theorem mem_touchedBy
    {owner : Owner}
    (found : scene.owner? source = some owner) :
    id ∈ touchedBy scene source ↔
      id = source ∨ owner.parent = some id ∨ id ∈ owner.children ++ owner.tags ∨
        ∃ reference ∈ scene.holdersOf (Std.ExtTreeSet.ofList [source]),
          reference.owner = id := by
  simp [touchedBy, found, or_assoc]

/-- The owners that a replacement touches are known from the start. -/
theorem source_of_touchedBy
    (linked : scene.Linked ∅)
    (sound : scene.Sound)
    (category : scene.categoryOf source = some .object)
    (isTouched : ∀ id ∈ touchedBy scene source, id ∈ touched) :
    Source touched scene source := by
  obtain ⟨owner, found, _⟩ := scene.categoryOf_eq_some_iff.1 category
  have member := isTouched source ((mem_touchedBy found).2 (Or.inl rfl))
  constructor
  case category => exact category
  case member => exact member
  case host =>
    intro parent step
    refine isTouched parent ((mem_touchedBy found).2 (Or.inr (Or.inl ?_)))
    obtain ⟨same, again, isParent⟩ := scene.parentOf_eq_some_iff.1 step
    rw [found] at again
    cases again
    exact isParent
  case hosted =>
    intro id step
    exact isTouched id ((mem_touchedBy found).2
      (Or.inr (Or.inr (Or.inl ((linked.mem_lists_iff found).2 step)))))
  case held =>
    intro address property isProperty refers
    by_cases isSource : address.owner = source
    · rw [isSource]
      exact member
    · refine isTouched _ ((mem_touchedBy found).2 (Or.inr (Or.inr (Or.inr
        ⟨⟨address.owner, address.property, source⟩,
          Scene.mem_holdersOf.2 ⟨?_, ?_, ?_⟩, rfl⟩))))
      · exact sound.mem_references_iff.2 ⟨property, isProperty, refers⟩
      · exact mem_singleton_set.2 rfl
      · exact mt mem_singleton_set.1 isSource

/-- The objects to replace are objects. -/
theorem categoryOf_source
    {command : Convert}
    (member : id ∈ command.sources scene) :
    scene.categoryOf id = some .object := by
  have convertible := (List.mem_filter.1 member).2
  cases found : scene.owner? id with
  | none => simp [found] at convertible
  | some owner =>
      simp only [found] at convertible
      rw [Scene.categoryOf, found]
      cases kind : owner.kind with
      | object type => simp [kind, OwnerKind.category]
      | _ => simp [kind, OwnerKind.isConvertible] at convertible

/-- At the start all objects remain. -/
theorem Replacing.start
    {nextId : Nat}
    (wellFormed : document.WellFormed)
    (later : document.nextId ≤ nextId)
    {pairs : List (OwnerId × Owner)}
    (objects : ∀ pair ∈ pairs, document.scene.categoryOf pair.1 = some .object)
    (distinctSources : (pairs.map Prod.fst).Nodup)
    (distinctPaths : (pairs.map fun pair => pair.2.id).Nodup)
    (ready : ∀ pair ∈ pairs,
      Replacement pair.2 ∧ document.nextId ≤ pair.2.id.number ∧
      pair.2.id.number < nextId)
    (sourcesTouched : ∀ pair ∈ pairs, ∀ id ∈ touchedBy document.scene pair.1,
      id ∈ touched)
    (pathsTouched : ∀ pair ∈ pairs, pair.2.id ∈ touched) :
    Replacing touched { document with nextId } pairs
      { document with nextId } where
  touches := .refl touched _
  numbers := rfl
  wellFormed := wellFormed.later later
  sources pair member := source_of_touchedBy wellFormed.linked wellFormed.sound
    (objects pair member) (sourcesTouched pair member)
  paths pair member := by
    obtain ⟨replacement, above, below⟩ := ready pair member
    refine ⟨replacement, pathsTouched pair member, below, ?_⟩
    by_contra present
    have known : document.scene.contains pair.2.id = true := by
      rw [Scene.contains_eq_categoryOf]
      exact Option.isSome_iff_ne_none.2 present
    have number := wellFormed.numbers pair.2.id known
    omega
  distinctSources := distinctSources
  distinctPaths := distinctPaths

/-- The paths that a command makes are ready to replace its objects. -/
theorem Replacing.of_paths
    {command : Convert}
    {count : Nat}
    {pairs : List (OwnerId × Owner)}
    (wellFormed : document.WellFormed)
    (drafts : Drafts document (command.sources document.scene)
      (document.counted count) pairs) :
    Replacing (Std.ExtTreeSet.ofList
      ((command.sources document.scene).flatMap (touchedBy document.scene) ++
        (pairs.map fun pair => (pair.1, pair.2.id)).map Prod.snd))
      (document.counted count) pairs (document.counted count) := by
  have isSource : ∀ pair ∈ pairs, pair.1 ∈ command.sources document.scene := by
    intro pair member
    rw [← drafts.sources]
    exact List.mem_map_of_mem member
  have distinctSources : (pairs.map Prod.fst).Nodup := by
    rw [drafts.sources]
    exact (Scene.nodup_topLevel _ _).filter _
  refine .start wellFormed drafts.later
    (fun pair member => categoryOf_source (isSource pair member))
    distinctSources drafts.distinct
    (fun pair member =>
      ⟨drafts.replacement wellFormed.sound member, drafts.fresh member⟩) ?_ ?_
  · intro pair member id isTouched
    simp only [Std.ExtTreeSet.mem_ofList, List.contains_eq_mem, List.mem_append,
      List.mem_flatMap, decide_eq_true_eq]
    exact Or.inl ⟨pair.1, isSource pair member, isTouched⟩
  · intro pair member
    simp only [Std.ExtTreeSet.mem_ofList, List.contains_eq_mem, List.mem_append,
      List.map_map, List.mem_map, decide_eq_true_eq]
    exact Or.inr ⟨pair, member, rfl⟩

/-- Replacing shapes by paths is lawful. -/
theorem lawful
    {command : Convert}
    (wellFormed : document.WellFormed)
    (unused : command.transition = none) :
    Lawful apply revert document (command.apply document) := by
  rw [apply, unused]
  simp only
  split
  · exact .ofIdle command
  unfold convertAll
  obtain ⟨count, counted⟩ :=
    exists_counted document (command.sources document.scene)
  have later : document.nextId ≤ document.nextId + count := Nat.le_add_right _ _
  rcases isPaths : pathsFor document (command.sources document.scene) with
    ⟨last, fault | pairs⟩
  all_goals
    rw [isPaths] at counted
    obtain rfl : last = document.counted count := counted
  · exact .failed command _ later fault
  · have replacing := Replacing.of_paths wellFormed (drafts_of_pathsFor isPaths)
    refine .first later (fun _ _ => rfl) (fun _ _ => rfl)
      ((Change.Ends.forM (fun _ _ _ => Replacing.replaceOne) replacing).mono ?_)
    intro _ final replaced
    exact ⟨replaced.touches, replaced.wellFormed⟩

end Convert
end MotionScene
