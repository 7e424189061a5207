import MotionScene.Command.Conversion
import MotionScene.Proofs.Command.Lawful
import MotionScene.Proofs.Owner.Making
import MotionScene.Proofs.Scene.Handover

/-!
# What a path inherits from the object it replaces

The new path has the values of the object where both have a property, so it is
sound.  It takes over the lists of the object: everything in them gets it for a
parent, and nothing lies beneath the object any more.
-/

namespace MotionScene
namespace Convert

variable {document middle : Document} {scene : Scene} {touched : OwnerSet}
  {source id : OwnerId} {path : Owner}

/-! ## The new paths -/

/-- A new object that can take the place of another one: it is sound and refers
to nothing. -/
structure Replacement (path : Owner) : Prop where
  unlinked : path.content = path
  category : path.kind.category = .object
  sound : path.Sound
  silent : ∀ property ∈ path.properties, property.value.target? = none

/-- Inheriting keeps the name and the kind of a property, and gives it a sound
value. -/
theorem inherit_spec
    {source : Owner}
    {property : Property}
    (sound : source.Sound)
    (pristine : property.Pristine)
    (id : OwnerId) :
    (inherit source id property).name = property.name ∧
      (inherit source id property).kind = property.kind ∧
      (inherit source id property).Sound id := by
  unfold inherit
  cases found : source.property? property.name with
  | none => exact ⟨rfl, rfl, pristine.sound id⟩
  | some inherited =>
      simp only
      split
      · next same =>
        have named := Owner.name_of_find? found
        have original :=
          sound.properties inherited (List.mem_of_find?_eq_some found)
        refine ⟨named, same, original.value_kind, ?_⟩
        intro track isTrack
        obtain ⟨old, isOld, rfl⟩ := Option.map_eq_some_iff.1 isTrack
        exact (original.track_fits old isOld).retargeted _
      · exact ⟨rfl, rfl, pristine.sound id⟩

theorem kind_of_path
    {settings : PathSettings}
    {property : Property}
    (member : property ∈ Owner.defaultProperties (.object .path) settings) :
    property.kind ≠ .reference := by
  revert property
  simp [Owner.defaultProperties, Owner.commonProperties, Owner.shapeProperties,
    Property.ofValue, Value.kind]

theorem target?_of_kind {value : Value} (kind : value.kind ≠ .reference) :
    value.target? = none := by
  cases value with
  | reference => exact absurd rfl kind
  | _ => rfl

theorem replacement_of_pathFor
    {source : Owner}
    (sound : source.Sound)
    (built : pathFor document source id = .ok path) :
    Replacement path := by
  unfold pathFor at built
  obtain ⟨geometry, _, same⟩ := Attempt.bind_eq_ok_iff.1 built
  have pristine :=
    (Owner.ofKind_pristine id
      (.object .path) document.paths).withGeometry geometry
  cases same
  refine ⟨?_, rfl, ⟨pristine.geometry_iff, ?_, ?_⟩, ?_⟩
  · rfl
  · have names :
        (((document.buildOwner id (.object .path)).withGeometry
          geometry).properties.map
        (inherit source id)).map Property.name =
        ((document.buildOwner id (.object .path)).withGeometry
          geometry).properties.map Property.name := by
      rw [List.map_map]
      refine List.map_congr_left ?_
      intro property member
      exact (inherit_spec sound (pristine.properties property member) id).1
    simp only [names]
    exact pristine.names
  · intro property member
    obtain ⟨original, isOriginal, rfl⟩ := List.mem_map.1 member
    exact (inherit_spec sound (pristine.properties original isOriginal) id).2.2
  · intro property member
    obtain ⟨original, isOriginal, rfl⟩ := List.mem_map.1 member
    obtain ⟨_, kind, isSound⟩ :=
      inherit_spec sound (pristine.properties original isOriginal) id
    refine target?_of_kind ?_
    rw [isSound.value_kind, kind]
    exact kind_of_path isOriginal

theorem id_of_pathFor
    {source : Owner}
    (built : pathFor document source id = .ok path) :
    path.id = id := by
  obtain ⟨geometry, _, same⟩ := Attempt.bind_eq_ok_iff.1 built
  cases same
  rfl

/-- Making paths gives numbers out and does nothing else to the document, even
if it fails. -/
theorem exists_counted (document : Document) (ids : List OwnerId) :
    ∃ count, (pathsFor document ids).1 = document.counted count := by
  induction ids generalizing document with
  | nil => exact ⟨0, rfl⟩
  | cons id rest inductionHypothesis =>
      rw [pathsFor]
      split
      · exact ⟨0, rfl⟩
      next allocated fresh isAllocated =>
      obtain ⟨_, rfl, rfl⟩ := Document.allocate_eq_ok_iff.1 isAllocated
      split
      · exact ⟨1, rfl⟩
      · obtain ⟨count, same⟩ := inductionHypothesis (document.counted 1)
        exact ⟨1 + count,
          same.trans (Document.counted_counted document 1 count)⟩

/-- Paths that were made for some objects: they have the next numbers, in
order, and each is made for the object as it is. -/
structure Drafts
    (document : Document)
    (ids : List OwnerId)
    (last : Document)
    (pairs : List (OwnerId × Owner)) : Prop where
  sources : pairs.map Prod.fst = ids
  numbers : pairs.map (fun pair => pair.2.id.number) =
    List.range' document.nextId ids.length
  counted : last = document.counted ids.length
  room : ids ≠ [] → last.nextId < OwnerId.limit
  built : ∀ pair ∈ pairs, ∃ owner, document.scene.owner? pair.1 = some owner ∧
    pathFor document owner pair.2.id = .ok pair.2

theorem drafts_of_pathsFor
    {ids : List OwnerId}
    {last : Document}
    {pairs : List (OwnerId × Owner)}
    (made : pathsFor document ids = (last, .ok pairs)) :
    Drafts document ids last pairs := by
  induction ids generalizing document pairs with
  | nil =>
      cases made
      exact ⟨rfl, rfl, rfl, fun some => absurd rfl some, List.forall_mem_nil _⟩
  | cons id rest inductionHypothesis =>
      rw [pathsFor] at made
      split at made
      · cases made
      next allocated fresh isAllocated =>
      obtain ⟨room, rfl, rfl⟩ := Document.allocate_eq_ok_iff.1 isAllocated
      split at made
      · cases made
      next path isBuilt =>
      obtain ⟨isLast, isPairs⟩ := Prod.mk.inj made
      obtain ⟨others, isOthers, rfl⟩ := Attempt.map_eq_ok_iff.1 isPairs
      obtain ⟨owner, isOwner, built⟩ := Attempt.bind_eq_ok_iff.1 isBuilt
      have drafts := inductionHypothesis (Prod.ext isLast isOthers)
      have number := id_of_pathFor built
      constructor
      case sources => rw [List.map_cons, drafts.sources]
      case numbers =>
        rw [List.map_cons, drafts.numbers, number]
        rfl
      case counted =>
        rw [drafts.counted, Document.counted_counted, Nat.add_comm]
        rfl
      case room =>
        intro _
        cases rest with
        | nil =>
            rw [drafts.counted]
            exact room
        | cons next others => exact drafts.room (List.cons_ne_nil next others)
      case built =>
        refine List.forall_mem_cons.2
          ⟨⟨owner, Scene.owner_eq_ok_iff.1 isOwner, ?_⟩, drafts.built⟩
        rw [number]
        exact built

namespace Drafts

variable {ids : List OwnerId} {last : Document} {pairs : List (OwnerId × Owner)}

theorem distinct (drafts : Drafts document ids last pairs) :
    (pairs.map fun pair => pair.2.id).Nodup := by
  have numbers :
      ((pairs.map fun pair => pair.2.id).map OwnerId.number).Nodup := by
    rw [List.map_map]
    exact drafts.numbers ▸ List.nodup_range'
  exact numbers.of_map

theorem later (drafts : Drafts document ids last pairs) :
    document.nextId ≤ last.nextId := by
  rw [drafts.counted]
  exact Nat.le_add_right _ _

/-- The numbers were not given out before. -/
theorem fresh
    (drafts : Drafts document ids last pairs)
    {pair : OwnerId × Owner}
    (member : pair ∈ pairs) :
    document.nextId ≤ pair.2.id.number ∧ pair.2.id.number < last.nextId := by
  have listed := List.mem_map_of_mem (f := fun pair => pair.2.id.number) member
  rw [drafts.numbers, List.mem_range'_1] at listed
  rw [drafts.counted]
  exact listed

theorem replacement
    (drafts : Drafts document ids last pairs)
    (sound : document.scene.Sound)
    {pair : OwnerId × Owner}
    (member : pair ∈ pairs) :
    Replacement pair.2 := by
  obtain ⟨owner, known, built⟩ := drafts.built pair member
  exact replacement_of_pathFor (sound.owner known) built

end Drafts

/-! ## Handing the lists over -/

/-- The scene with the lists of an owner emptied. -/
def emptied (scene : Scene) (source : OwnerId) : Scene :=
  scene.modify source fun owner => { owner with children := [], tags := [] }

theorem stem?_emptied (id : OwnerId) :
    (emptied scene source).stem? id = scene.stem? id := by
  rw [emptied, Scene.stem?, Scene.owner?_modify, Scene.stem?]
  split
  · next same =>
    subst same
    rw [Option.map_map]
    rfl
  · rfl

theorem entries_emptied (place : Place) :
    (emptied scene source).entries place =
      if place.host? = some source then [] else scene.entries place := by
  cases place with
  | children host | tags host =>
      simp only [emptied, Scene.entries, Scene.owner?_modify, Place.host?,
        Option.some.injEq]
      by_cases same : source = host
      · subst same
        cases scene.owner? source <;> simp
      · simp [same, Ne.symm same]
  | styles | tools => rfl

/-- What holds while owners get a new parent; some remain. -/
structure Handing
    (touched : OwnerSet)
    (document : Document)
    (items : List OwnerId)
    (heir : OwnerId)
    (rest : List OwnerId)
    (middle : Document) : Prop where
  touches : document.Touches touched middle
  numbers : middle.nextId = document.nextId
  root : middle.scene.root = document.scene.root
  selection : middle.scene.selection = document.scene.selection
  contents : ∀ id, middle.scene.content? id = document.scene.content? id
  entries : ∀ place, middle.scene.entries place = document.scene.entries place
  parents : ∃ done, items = done ++ rest ∧ ∀ id, middle.scene.parentOf id =
    if id ∈ done then some heir else document.scene.parentOf id

/-- One more owner gets the new parent. -/
theorem Handing.setParent
    {items rest : List OwnerId}
    {heir : OwnerId}
    (handing : Handing touched document items heir (id :: rest) middle)
    (isTouched : id ∈ touched)
    (known : (middle.scene.categoryOf id).isSome) :
    Handing touched document items heir rest
      { middle with scene := middle.scene.setParent id (some heir) } where
  touches := handing.touches.withScene (.modify isTouched _)
  numbers := handing.numbers
  root := handing.root
  selection := handing.selection
  contents other :=
    (Scene.content?_setParent _ id other _).trans (handing.contents other)
  entries place :=
    (Scene.entries_setParent _ id _ place).trans (handing.entries place)
  parents := by
    obtain ⟨done, split, parents⟩ := handing.parents
    refine ⟨done ++ [id], by rw [split]; simp, ?_⟩
    intro other
    obtain ⟨category, isCategory⟩ := Option.isSome_iff_exists.1 known
    rw [Scene.parentOf_setParent, isCategory, parents]
    by_cases same : id = other
    · simp [same]
    · simp [same, Ne.symm same]

theorem Handing.run
    {items : List OwnerId}
    (heir : OwnerId)
    (isTouched : ∀ id ∈ items, id ∈ touched) :
    (items.forM (Convert.setParent heir)).Ends document
      (fun _ final => Handing touched document items heir [] final)
      (document.Touches touched) := by
  have start : Handing touched document items heir items document :=
    ⟨.refl touched document, rfl, rfl, rfl, fun _ => rfl, fun _ => rfl, [],
      rfl, by simp⟩
  refine .forM ?_ start
  intro id rest middle handing
  refine .bind (.consult ?_ handing.touches)
  intro owner known
  obtain ⟨done, split, _⟩ := handing.parents
  refine .scene (handing.setParent (isTouched id ?_) ?_)
  · rw [split]
    exact List.mem_append_right done List.mem_cons_self
  · rw [Scene.categoryOf, Scene.owner_eq_ok_iff.1 known]
    rfl

/-- What was listed in the object has the path for a parent, and everything else
the one it had. -/
theorem Handing.parentOf_eq
    {loose : Set OwnerId}
    {owner : Owner}
    {heir : OwnerId}
    (linked : scene.Linked loose)
    (found : scene.owner? source = some owner)
    (handing : Handing touched { document with scene := emptied scene source }
      (owner.children ++ owner.tags) heir [] middle)
    (id : OwnerId) :
    middle.scene.parentOf id =
      (scene.parentOf id).map fun parent =>
        if parent = source then heir else parent := by
  obtain ⟨done, split, parents⟩ := handing.parents
  rw [List.append_nil] at split
  subst split
  rw [parents, Scene.parentOf_eq_stem?,
    stem?_emptied, ← Scene.parentOf_eq_stem?]
  split
  · next member =>
    rw [(linked.mem_lists_iff found).1 member, Option.map_some, if_pos rfl]
  · next outside =>
    cases step : scene.parentOf id with
    | none => rfl
    | some parent =>
        rw [Option.map_some, if_neg]
        rintro rfl
        exact outside ((linked.mem_lists_iff found).2 step)

/-- With the new parents set, the path can be registered with the lists of the
object. -/
theorem Handing.handsOver
    {loose : Set OwnerId}
    {owner : Owner}
    (linked : scene.Linked loose)
    (found : scene.owner? source = some owner)
    (absent : scene.categoryOf path.id = none)
    (replacement : Replacement path)
    (handing : Handing touched { document with scene := emptied scene source }
      (owner.children ++ owner.tags) path.id [] middle) :
    scene.HandsOver
      (middle.scene.insert
        { path with children := owner.children, tags := owner.tags })
      source path.id := by
  have known : (scene.categoryOf source).isSome := by
    rw [Scene.categoryOf, found]
    rfl
  have differs : path.id ≠ source := by
    intro same
    rw [← same, absent] at known
    cases known
  have children : scene.entries (.children source) = owner.children := by
    simp [Scene.entries, found]
  have tags : scene.entries (.tags source) = owner.tags := by
    simp [Scene.entries, found]
  have entries : ∀ place, middle.scene.entries place =
      if place.host? = some source then [] else scene.entries place :=
    fun place => (handing.entries place).trans (entries_emptied place)
  constructor
  case known => exact known
  case absent => exact absent
  case root => exact handing.root
  case category =>
    intro id
    rw [Scene.categoryOf_insert, Scene.categoryOf_eq_content?, handing.contents,
      ← Scene.categoryOf_eq_content?, Scene.categoryOf_eq_stem?, stem?_emptied,
      ← Scene.categoryOf_eq_stem?]
    simp only [replacement.category, eq_comm]
  case parent =>
    intro id
    rw [Scene.parentOf_insert]
    split
    · next same =>
      have unlinked : path.parent = none := by
        rw [← replacement.unlinked]
        rfl
      have nowhere : scene.parentOf id = none := by
        simp only at same
        rw [← same, Scene.parentOf, Option.map_eq_none_iff.1 absent]
        rfl
      rw [nowhere]
      exact unlinked
    · exact handing.parentOf_eq linked found id
  case inherited =>
    intro place belongs
    cases place with
    | children host | tags host =>
        cases belongs
        simp [Scene.entries_insert, Place.moved, children, tags]
    | styles | tools => cases belongs
  case emptied =>
    intro place belongs
    have cleared := entries place
    rw [if_pos belongs] at cleared
    rw [Scene.entries_insert]
    cases place with
    | children host | tags host =>
        cases belongs
        simpa [differs] using cleared
    | styles | tools => cases belongs
  case kept =>
    intro place notHeir notSource
    have kept := entries place
    rw [if_neg notSource] at kept
    rw [Scene.entries_insert, ← kept]
    cases place with
    | children host | tags host =>
        have notHost : path.id ≠ host :=
          fun same => notHeir (congrArg some same.symm)
        simp [notHost]
    | styles | tools => rfl

end Convert
end MotionScene
