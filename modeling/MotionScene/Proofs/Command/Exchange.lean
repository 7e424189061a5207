import MotionScene.Proofs.Command.Conversion
import MotionScene.Proofs.Command.Turning
import MotionScene.Proofs.Document.Opening

/-!
# Paths stand where the objects stood

A conversion exchanges objects for paths.  Each path has the links of its object
and the properties that both have; the other owners are the same, with the
objects renamed in their links and references.  Objects are exchanged one after
the other, and as none lies above another one, what happens to one of them does
not show in the links of the next.
-/

namespace MotionScene

/-- The property as another owner has it: the track names it there. -/
def Property.handedTo (property : Property) (id : OwnerId) : Property :=
  { property with
    track := property.track.map fun track =>
      { track with target := ⟨id, property.name⟩ } }

/-- The owner with some objects renamed wherever it links or refers to them. -/
def Owner.renamed (rename : OwnerId → OwnerId) (owner : Owner) : Owner :=
  { owner with
    properties := owner.properties.map (Property.renamed rename)
    parent := owner.parent.map rename
    children := owner.children.map rename }

theorem Owner.renamed_renamed
    (second first : OwnerId → OwnerId)
    (owner : Owner) :
    (owner.renamed first).renamed second = owner.renamed (second ∘ first) := by
  have values : ∀ value : Value, (value.renamed first).renamed second =
      value.renamed (second ∘ first) := by
    intro value
    cases value <;> simp [Value.renamed]
  simp [renamed, Property.renamed, Function.comp_def, values]

theorem Owner.renamed_id (owner : Owner) :
    owner.renamed (fun id => id) = owner := by
  have values : ∀ value : Value, value.renamed (fun id => id) = value := by
    intro value
    cases value <;> simp [Value.renamed]
  have properties :
      Property.renamed (fun id => id) = fun property => property := by
    funext property
    rw [Property.renamed, values]
  simp [renamed, properties]

theorem Property.renamed_of_silent
    {property : Property}
    (rename : OwnerId → OwnerId)
    (silent : property.value.target? = none) :
    property.renamed rename = property := by
  obtain ⟨name, kind, value, constraints, track⟩ := property
  cases value with
  | reference target =>
      cases target with
      | none => rfl
      | some target => cases silent
  | _ => rfl

namespace Convert

/-- The owner that stands in the place of another one. -/
def heir : List (OwnerId × Owner) → OwnerId → OwnerId
  | [], id => id
  | (source, path) :: rest, id => if id = source then path.id else heir rest id

theorem heir_of_notMem
    {pairs : List (OwnerId × Owner)}
    {id : OwnerId}
    (unlisted : id ∉ pairs.map Prod.fst) :
    heir pairs id = id := by
  induction pairs with
  | nil => rfl
  | cons pair rest inductionHypothesis =>
      rw [List.map_cons, List.mem_cons, not_or] at unlisted
      rw [heir, if_neg unlisted.1, inductionHypothesis unlisted.2]

end Convert

/-- Another scene has paths in the place of some objects, with the same links;
the other owners are the same, with the objects renamed. -/
structure Scene.Exchanges
    (scene : Scene)
    (pairs : List (OwnerId × Owner))
    (final : Scene) : Prop where
  root : final.root = scene.root
  styles : final.styles = scene.styles
  tools : final.tools = scene.tools
  selection : ∀ id, id ∈ final.selection ↔
    ∃ old ∈ scene.selection, Convert.heir pairs old = id
  gone : ∀ pair ∈ pairs, final.owner? pair.1 = none
  paths : ∀ pair ∈ pairs, ∃ owner, scene.owner? pair.1 = some owner ∧
    final.owner? pair.2.id = some { pair.2 with
      parent := owner.parent, children := owner.children, tags := owner.tags }
  others : ∀ id, id ∉ pairs.map Prod.fst → (∀ pair ∈ pairs, pair.2.id ≠ id) →
    final.owner? id = (scene.owner? id).map (Owner.renamed (Convert.heir pairs))

namespace Scene

theorem Exchanges.nil (scene : Scene) : scene.Exchanges [] scene where
  root := rfl
  styles := rfl
  tools := rfl
  selection id := by simp [Convert.heir]
  gone := nofun
  paths := nofun
  others id _ _ := by
    have same : Owner.renamed (Convert.heir []) = fun owner => owner :=
      funext Owner.renamed_id
    rw [same, Option.map_id_fun']
    rfl

/-! ## Standing in -/

section StandingIn

variable {scene handed : Scene} {source : OwnerId} {path : Owner} {slot : Slot}

/-- The entry at a position replaced by a new one. -/
theorem insertAt_eraseIdx_of_idxOf?
    {ids : List OwnerId}
    {index : Nat}
    (nodup : ids.Nodup)
    (found : ids.idxOf? source = some index)
    (rename : OwnerId → OwnerId)
    (others : ∀ id, id ≠ source → rename id = id) :
    insertAt (ids.eraseIdx index) index (rename source) = ids.map rename := by
  have kept : (ids.eraseIdx index).map rename = ids.eraseIdx index := by
    rw [eraseIdx_of_idxOf? nodup found]
    refine map_eq_self fun id member => others id ?_
    simpa using (List.mem_filter.1 member).2
  conv_rhs => rw [← insertAt_eraseIdx found]
  rw [insertAt, insertAt, List.map_insertIdx, kept]

/-- The objects are listed among the children of their parents only. -/
theorem Linked.map_entries_eq_self
    (linked : scene.Linked ∅)
    (category : scene.categoryOf source = some .object)
    {place : Place}
    (elsewhere : place.category ≠ .object)
    {rename : OwnerId → OwnerId}
    (others : ∀ id, id ≠ source → rename id = id) :
    (scene.entries place).map rename = scene.entries place := by
  refine map_eq_self fun id member => others id ?_
  rintro rfl
  obtain ⟨home, _⟩ := (linked.listed place id).1 member
  rw [(scene.home?_eq_some_iff.1 home).1] at category
  exact elsewhere (Option.some.inj category)

variable
  (linked : scene.Linked ∅)
  (found : scene.slotOf source = some slot)
  (hands : (scene.released source slot).HandsOver handed source path.id)
  (check : handed.checkAttach path.id slot = .ok ())
include linked found hands check

/-- The path has the parent of the object, and what was beneath the object is
beneath the path. -/
theorem parentOf_standIn {id : OwnerId} (differs : id ≠ source) :
    (handed.hung path.id slot).parentOf id =
      if id = path.id then scene.parentOf source
      else (scene.parentOf id).map (Convert.heir [(source, path)]) := by
  rw [parentOf_hung (known_of_check check)]
  split
  · next same => rw [if_pos same.symm, linked.parentOf_of_slotOf found]
  · next other =>
    rw [if_neg (Ne.symm other), hands.parent, parentOf_released,
      if_neg (Ne.symm differs)]
    rfl

/-- The path has the lists of the object. -/
theorem entries_standIn_self
    {place : Place}
    (belongs : place.host? = some path.id) :
    (handed.hung path.id slot).entries place =
      scene.entries (place.moved source) := by
  have elsewhere : slot.place ≠ place := by
    rintro rfl
    rw [Slot.host?_place, ← linked.parentOf_of_slotOf found] at belongs
    have known := linked.host_category source path.id belongs
    rw [← categoryOf_released, hands.absent] at known
    cases known
  rw [entries_hung (offers_of_check check), if_neg elsewhere,
    hands.inherited place belongs, linked.entries_released found]
  refine List.filter_eq_self.2 fun other listed => ?_
  rw [decide_eq_true_eq]
  rintro rfl
  have step := (linked.host_of_mem listed (Place.host?_moved belongs other)).1
  exact linked.acyclic other other step (.refl scene other)

/-- Every other list has the path in the place of the object. -/
theorem entries_standIn
    {place : Place}
    (notPath : place.host? ≠ some path.id)
    (notSource : place.host? ≠ some source) :
    (handed.hung path.id slot).entries place =
      (scene.entries place).map (Convert.heir [(source, path)]) := by
  obtain ⟨home, position⟩ := slotOf_eq_some_iff.1 found
  have others : ∀ id, id ≠ source → Convert.heir [(source, path)] id = id :=
    fun id differs => if_neg differs
  have offers : scene.Offers slot.place :=
    linked.offers_of_mem (List.isSome_idxOf?.1 (by rw [position]; rfl))
  rw [entries_hung (offers_of_check check), hands.kept place notPath notSource,
    entries_released offers]
  split
  · next same =>
    subst same
    have renamed :=
      insertAt_eraseIdx_of_idxOf? (linked.nodup slot.place) position _ others
    rwa [Convert.heir, if_pos rfl] at renamed
  · next differs =>
    refine (map_eq_self fun id member => others id ?_).symm
    rintro rfl
    obtain ⟨elsewhere, _⟩ := (linked.listed place id).1 member
    rw [home] at elsewhere
    exact differs (Option.some.inj elsewhere)

/-- The owners other than the object, with the path in its place. -/
theorem owner?_standIn
    (contents : ∀ id, handed.content? id =
      if path.id = id then some path else scene.content? id)
    (category : scene.categoryOf source = some .object)
    {id : OwnerId}
    (differs : id ≠ source) :
    (handed.hung path.id slot).owner? id =
      if id = path.id then
        (scene.owner? source).map fun owner =>
          { path with
            parent := owner.parent
            children := owner.children
            tags := owner.tags }
      else
        (scene.owner? id).map fun owner =>
          { owner with
            parent := owner.parent.map (Convert.heir [(source, path)])
            children :=
              owner.children.map (Convert.heir [(source, path)]) } := by
  rw [owner?_eq_content?, content?_hung, contents,
    parentOf_standIn linked found hands check differs]
  split
  · next same =>
    subst same
    obtain ⟨owner, isOwner, _⟩ := scene.categoryOf_eq_some_iff.1 category
    rw [entries_standIn_self linked found hands check rfl,
      entries_standIn_self linked found hands check rfl]
    simp [Place.moved, entries, parentOf, isOwner]
  · next other =>
    have others : ∀ id, id ≠ source → Convert.heir [(source, path)] id = id :=
      fun id differs => if_neg differs
    have lists : ∀ place, place.host? = some id →
        (handed.hung path.id slot).entries place =
        (scene.entries place).map (Convert.heir [(source, path)]) := by
      intro place belongs
      refine entries_standIn linked found hands check ?_ ?_ <;>
        simp [belongs, other, differs]
    have notObject : (Place.tags id).category ≠ .object := by
      simp [Place.category]
    have tags := lists (.tags id) rfl
    rw [linked.map_entries_eq_self category notObject others] at tags
    rw [if_neg (Ne.symm other), lists (.children id) rfl, tags,
      owner?_eq_content? scene]
    cases scene.content? id <;> simp

end StandingIn

end Scene

namespace Convert

variable {document middle : Document} {scene handed : Scene}
  {touched : OwnerSet} {source : OwnerId} {path : Owner}

/-! ## Exchanging one object -/

theorem mem_reselect_iff {selection : OwnerSet} {id : OwnerId} :
    id ∈ reselect selection source path.id ↔
      ∃ old ∈ selection, heir [(source, path)] old = id := by
  simp only [heir, reselect]
  split
  · next selected =>
    simp only [Std.ExtTreeSet.mem_insert, Std.ExtTreeSet.mem_erase, ne_eq,
      Std.compare_eq_iff_eq]
    constructor
    · rintro (same | ⟨differs, member⟩)
      · exact ⟨source, selected, (if_pos rfl).trans same⟩
      · exact ⟨id, member, if_neg (Ne.symm differs)⟩
    · rintro ⟨old, member, isHeir⟩
      split at isHeir
      · exact Or.inl isHeir
      · next differs =>
        subst isHeir
        exact Or.inr ⟨Ne.symm differs, member⟩
  · next unselected =>
    constructor
    · intro member
      exact ⟨id, member, if_neg fun same : id = source =>
        unselected (same ▸ member)⟩
    · rintro ⟨old, member, isHeir⟩
      rw [if_neg fun same : old = source => unselected (same ▸ member)]
        at isHeir
      exact isHeir ▸ member

/-- A new path refers to nothing, so nothing can be renamed in it. -/
theorem Replacement.map_renamed
    (replacement : Replacement path)
    (rename : OwnerId → OwnerId) :
    path.properties.map (Property.renamed rename) = path.properties := by
  refine map_eq_self fun property member => Property.renamed_of_silent rename ?_
  exact replacement.silent property member

/-- Once the path stands in for the object and the references are turned, the
object can go. -/
theorem exchanges_discarded
    {slot : Slot}
    {turned : Scene}
    (linked : scene.Linked ∅)
    (category : scene.categoryOf source = some .object)
    (replacement : Replacement path)
    (found : scene.slotOf source = some slot)
    (hands : (scene.released source slot).HandsOver handed source path.id)
    (contents : ∀ id, handed.content? id =
      if path.id = id then some path else scene.content? id)
    (selection : handed.selection = scene.selection)
    (check : handed.checkAttach path.id slot = .ok ())
    (sound : (handed.hung path.id slot).Sound)
    (isTurned : (handed.hung path.id slot).Turned (.reference (some path.id))
      (((handed.hung path.id slot).holdersOf
        (Std.ExtTreeSet.ofList [source])).map Reference.address) turned) :
    scene.Exchanges [(source, path)] (discarded turned source path.id) := by
  have owners : ∀ id, id ≠ source →
      (discarded turned source path.id).owner? id =
      ((handed.hung path.id slot).owner? id).map fun owner =>
        { owner with
          properties := owner.properties.map
            (Property.renamed (heir [(source, path)])) } := by
    intro id differs
    have renames : heir [(source, path)] =
        fun target =>
          if target ∈ (Std.ExtTreeSet.ofList [source] : OwnerSet) then path.id
          else target :=
      funext fun target => by simp only [heir, mem_singleton_set]
    rw [renames, ← isTurned.owner?_eq_renamed sound
      (fun inside => differs (mem_singleton_set.1 inside))]
    exact (Scene.owner?_erase _ source id).trans (if_neg (Ne.symm differs))
  have lists : ∀ place, place.host? = none → place.category ≠ .object →
      (handed.hung path.id slot).entries place = scene.entries place := by
    intro place hostless notObject
    rw [Scene.entries_standIn linked found hands check (by simp [hostless])
      (by simp [hostless])]
    exact linked.map_entries_eq_self category notObject
      fun id differs => if_neg differs
  have standsIn :=
    @Scene.owner?_standIn _ _ _ _ _ linked found hands check contents category
  constructor
  case root =>
    exact isTurned.root.trans
      (Scene.root_hung.trans (hands.root.trans Scene.root_released))
  case styles =>
    exact isTurned.styles.trans (lists .styles rfl (by simp [Place.category]))
  case tools =>
    exact isTurned.tools.trans (lists .tools rfl (by simp [Place.category]))
  case selection =>
    intro id
    have same : turned.selection = scene.selection :=
      isTurned.selection.trans (Scene.selection_hung.trans selection)
    rw [← same]
    exact mem_reselect_iff
  case gone =>
    intro pair isPair
    rw [List.mem_singleton] at isPair
    subst isPair
    exact (Scene.owner?_erase _ source source).trans (if_pos rfl)
  case paths =>
    intro pair isPair
    rw [List.mem_singleton] at isPair
    subst isPair
    obtain ⟨owner, isOwner, _⟩ := scene.categoryOf_eq_some_iff.1 category
    refine ⟨owner, isOwner, ?_⟩
    rw [owners path.id hands.ne, standsIn hands.ne, if_pos rfl, isOwner,
      Option.map_some, Option.map_some]
    simp only [replacement.map_renamed]
  case others =>
    intro id notSource notPath
    have differs : id ≠ source := fun same => notSource (by simp [same])
    have isOther : id ≠ path.id :=
      Ne.symm (notPath (source, path) List.mem_cons_self)
    rw [owners id differs, standsIn differs, if_neg isOther, Option.map_map]
    rfl

/-- Replacing one object exchanges it for the path. -/
theorem ends_exchangeOne
    (wellFormed : document.WellFormed)
    (isSource : Source touched document.scene source)
    (replacement : Replacement path)
    (pathTouched : path.id ∈ touched)
    (absent : document.scene.categoryOf path.id = none)
    (number : path.id.number < document.nextId) :
    (replaceOne source path).Ends document
      (fun _ final => document.scene.Exchanges [(source, path)] final.scene)
      (document.Touches touched) := by
  have linked := wellFormed.linked
  refine ends_standIn wellFormed isSource replacement pathTouched absent ?_
  intro slot handed found hands contents selection check touches
  have doubled := doubled_hung linked found hands contents selection check
  have sound := doubled.sound replacement absent wellFormed.sound
  have takeOver :=
    ends_takeOver wellFormed isSource replacement absent number doubled touches
  refine ((@Change.Ends.and _ _ _ _ _ (fun _ final =>
    document.scene.Exchanges [(source, path)] final.scene)
      (fun _ => True) takeOver ?_).worsen
    fun _ both => both.1).mono fun _ _ both => both.2
  refine .bind (.consult ?_ trivial)
  intro holders isHolders
  cases isHolders
  refine .bind
    ((Scene.Turning.run (fun id owner isOwner => (sound.owner isOwner).names)
      _ _).mono ?_)
  intro _ turned turning
  exact .scene (exchanges_discarded linked isSource.category replacement found
    hands contents selection check sound turning.turned)

/-! ## Exchanging all objects -/

/-- The links of an object do not change with other objects that are not next to
it in the tree. -/
theorem links_of_apart
    {pairs : List (OwnerId × Owner)}
    {owner : Owner}
    (linked : scene.Linked ∅)
    (found : scene.owner? source = some owner)
    (above : ∀ pair ∈ pairs, scene.parentOf source ≠ some pair.1)
    (beneath : ∀ pair ∈ pairs, scene.parentOf pair.1 ≠ some source) :
    owner.parent.map (heir pairs) = owner.parent ∧
      owner.children.map (heir pairs) = owner.children := by
  constructor
  · cases isParent : owner.parent with
    | none => rfl
    | some parent =>
        rw [Option.map_some, heir_of_notMem]
        intro listed
        obtain ⟨pair, isPair, same⟩ := List.mem_map.1 listed
        exact above pair isPair
          (scene.parentOf_eq_some_iff.2 ⟨owner, found, same ▸ isParent⟩)
  · refine map_eq_self fun child isChild => heir_of_notMem ?_
    intro listed
    obtain ⟨pair, isPair, same⟩ := List.mem_map.1 listed
    refine beneath pair isPair ?_
    rw [same]
    exact (linked.mem_lists_iff found).1
      (List.mem_append_left owner.tags isChild)

section Both

variable {start : Document} {pair : OwnerId × Owner}
  {rest : List (OwnerId × Owner)}

/-- An object that is still to be exchanged is none of the new paths. -/
theorem Replacing.source_ne_path
    {pairs : List (OwnerId × Owner)}
    (replacing : Replacing touched document pairs start)
    {a b : OwnerId × Owner}
    (isSource : a ∈ pairs)
    (isPath : b ∈ pairs) :
    a.1 ≠ b.2.id := by
  intro same
  have known := (replacing.sources a isSource).category
  rw [same, (replacing.paths b isPath).2.2.2] at known
  cases known

/-- Exchanging one object and then the others exchanges them all. -/
theorem Replacing.exchanges_cons
    {middle final : Scene}
    (replacing : Replacing touched document (pair :: rest) start)
    (apart : ∀ a ∈ pair :: rest, ∀ b ∈ pair :: rest,
      start.scene.parentOf a.1 ≠ some b.1)
    (one : start.scene.Exchanges [pair] middle)
    (more : middle.Exchanges rest final) :
    start.scene.Exchanges (pair :: rest) final := by
  have linked := replacing.wellFormed.linked
  have self : pair ∈ pair :: rest := List.mem_cons_self
  have later : ∀ other ∈ rest, other ∈ pair :: rest :=
    fun other => List.mem_cons_of_mem pair
  obtain ⟨otherSources, _⟩ := List.nodup_cons.1 replacing.distinctSources
  obtain ⟨otherPaths, _⟩ := List.nodup_cons.1 replacing.distinctPaths
  have pathKept : pair.2.id ∉ rest.map Prod.fst := by
    intro listed
    obtain ⟨other, isOther, same⟩ := List.mem_map.1 listed
    exact replacing.source_ne_path (later other isOther) self same
  have heirs : heir rest ∘ heir [pair] = heir (pair :: rest) := by
    funext id
    by_cases same : id = pair.1
    · simp [heir, same, heir_of_notMem pathKept]
    · simp [heir, same]
  constructor
  case root => exact more.root.trans one.root
  case styles => exact more.styles.trans one.styles
  case tools => exact more.tools.trans one.tools
  case selection =>
    intro id
    simp only [more.selection, one.selection, ← heirs, Function.comp_apply]
    constructor
    · rintro ⟨_, ⟨old, isSelected, rfl⟩, isHeir⟩
      exact ⟨old, isSelected, isHeir⟩
    · rintro ⟨old, isSelected, isHeir⟩
      exact ⟨_, ⟨old, isSelected, rfl⟩, isHeir⟩
  case gone =>
    intro other isOther
    rcases List.mem_cons.1 isOther with rfl | isRest
    · rw [more.others _ otherSources fun path isPath =>
        Ne.symm (replacing.source_ne_path self (later path isPath)),
        one.gone _ List.mem_cons_self]
      rfl
    · exact more.gone other isRest
  case paths =>
    intro other isOther
    rcases List.mem_cons.1 isOther with rfl | isRest
    · obtain ⟨owner, isOwner, isPath⟩ := one.paths _ List.mem_cons_self
      obtain ⟨parent, children⟩ := links_of_apart linked isOwner
        (fun next isNext => apart _ self next (later next isNext))
        (fun next isNext => apart next (later next isNext) _ self)
      refine ⟨owner, isOwner, ?_⟩
      rw [more.others _ pathKept fun next isNext same =>
        otherPaths (List.mem_map.2 ⟨next, isNext, same⟩), isPath,
        Option.map_some]
      simp only [Owner.renamed, parent, children,
        (replacing.paths _ self).1.map_renamed]
    · obtain ⟨changed, isChanged, isPath⟩ := more.paths other isRest
      have differs : other.1 ≠ pair.1 :=
        fun same => otherSources (same ▸ List.mem_map_of_mem isRest)
      have notPath : pair.2.id ≠ other.1 :=
        Ne.symm (replacing.source_ne_path isOther self)
      rw [one.others other.1 (by simpa using differs) (by simpa using notPath),
        Option.map_eq_some_iff] at isChanged
      obtain ⟨owner, isOwner, rfl⟩ := isChanged
      obtain ⟨parent, children⟩ := @links_of_apart _ _ [pair] _ linked isOwner
        (by simpa using apart other isOther pair self)
        (by simpa using apart pair self other isOther)
      refine ⟨owner, isOwner, ?_⟩
      rw [isPath]
      simp only [Owner.renamed, parent, children]
  case others =>
    intro id notSource notPath
    rw [List.map_cons, List.mem_cons, not_or] at notSource
    rw [more.others id notSource.2 fun path isPath =>
      notPath path (later path isPath),
      one.others id (by simpa using notSource.1)
        (by simpa using notPath pair self),
      Option.map_map, ← heirs]
    refine congrArg (Option.map · _) (funext fun owner => ?_)
    exact Owner.renamed_renamed _ _ owner

/-- What is left of a run starts from objects that are not next to each
other. -/
theorem Replacing.apart_rest
    {next : Scene}
    (replacing : Replacing touched document (pair :: rest) start)
    (apart : ∀ a ∈ pair :: rest, ∀ b ∈ pair :: rest,
      start.scene.parentOf a.1 ≠ some b.1)
    (one : start.scene.Exchanges [pair] next) :
    ∀ a ∈ rest, ∀ b ∈ rest, next.parentOf a.1 ≠ some b.1 := by
  intro a isA b isB step
  have self : pair ∈ pair :: rest := List.mem_cons_self
  have inA := List.mem_cons_of_mem pair isA
  have inB := List.mem_cons_of_mem pair isB
  have differs : a.1 ≠ pair.1 := fun same =>
    (List.nodup_cons.1 replacing.distinctSources).1
      (same ▸ List.mem_map_of_mem isA)
  have notPath : pair.2.id ≠ a.1 := Ne.symm (replacing.source_ne_path inA self)
  rw [Scene.parentOf,
    one.others a.1 (by simpa using differs) (by simpa using notPath)] at step
  obtain ⟨_, isChanged, isParent⟩ := Option.bind_eq_some_iff.1 step
  obtain ⟨owner, isOwner, rfl⟩ := Option.map_eq_some_iff.1 isChanged
  have links := @links_of_apart _ _ [pair] _ replacing.wellFormed.linked isOwner
    (by simpa using apart a inA pair self)
    (by simpa using apart pair self a inA)
  refine apart a inA b inB
    (start.scene.parentOf_eq_some_iff.2 ⟨owner, isOwner, ?_⟩)
  exact links.1.symm.trans isParent

/-- Replacing all objects exchanges them for the paths. -/
theorem ends_exchangeAll
    {pairs : List (OwnerId × Owner)}
    (replacing : Replacing touched document pairs start)
    (apart : ∀ a ∈ pairs, ∀ b ∈ pairs, start.scene.parentOf a.1 ≠ some b.1) :
    (replaceAll pairs).Ends start
      (fun _ final => start.scene.Exchanges pairs final.scene)
      (document.Touches touched) := by
  induction pairs generalizing start with
  | nil => exact .nil start.scene
  | cons pair rest inductionHypothesis =>
      obtain ⟨replacement, pathTouched, number, absent⟩ :=
        replacing.paths pair List.mem_cons_self
      have one := ends_exchangeOne replacing.wellFormed
        (replacing.sources pair List.mem_cons_self)
        replacement pathTouched absent (replacing.numbers ▸ number)
      change (replaceOne pair.1 pair.2 >>= fun _ =>
        replaceAll rest).Ends start _ _
      refine .bind
        (((replacing.replaceOne.and one).worsen fun _ both => both.1).mono ?_)
      rintro _ next ⟨onward, exchanged⟩
      exact (inductionHypothesis onward
        (replacing.apart_rest apart exchanged)).mono
        fun _ final more => replacing.exchanges_cons apart exchanged more

end Both

/-! ## What the paths inherit -/

/-- A path made from an object: it has the shape of the object and the
properties of a new path, but where the object has a property of the same name
and kind, it has that one. -/
structure Inherits (document : Document) (owner path : Owner) : Prop where
  kind : path.kind = .object .path
  geometry : ∃ geometry,
    shape document owner = .ok geometry ∧ path.geometry = some geometry
  properties : List.Forall₂
    (fun initial property =>
      (∀ held, owner.property? initial.name = some held →
        held.kind = initial.kind → property = held.handedTo path.id) ∧
      ((∀ held, owner.property? initial.name = some held →
        held.kind ≠ initial.kind) → property = initial))
    (Owner.defaultProperties (.object .path) document.paths) path.properties

theorem inherits_of_pathFor
    {owner : Owner}
    {id : OwnerId}
    (built : pathFor document owner id = .ok path) :
    Inherits document owner path := by
  obtain ⟨geometry, isShape, same⟩ := Attempt.bind_eq_ok_iff.1 built
  cases same
  refine ⟨rfl, ⟨geometry, isShape, rfl⟩,
    List.forall₂_map_right_iff.2 (List.forall₂_same.2 ?_)⟩
  intro initial _
  constructor
  · intro held found sameKind
    simp only [inherit, found, if_pos sameKind]
    rfl
  · intro unlike
    unfold inherit
    cases found : owner.property? initial.name with
    | none => rfl
    | some held => exact if_neg (unlike held found)

/-! ## The command -/

/-- The objects that are exchanged: the ellipses and rectangles of the list that
lie beneath no other owner of it. -/
theorem mem_sources_iff
    {command : Convert}
    (acyclic : scene.Acyclic)
    {id : OwnerId} :
    id ∈ command.sources scene ↔
      id ∈ command.targets ∧
        (∃ owner, scene.owner? id = some owner ∧
          (owner.kind = .object .ellipse ∨ owner.kind = .object .rectangle)) ∧
        ∀ other ∈ command.targets, scene.contains other = true → other ≠ id →
          ¬ scene.Climbs id other := by
  have convertible : ∀ kind : OwnerKind, kind.isConvertible = true ↔
      kind = .object .ellipse ∨ kind = .object .rectangle := by
    intro kind
    cases kind with
    | object type =>
        cases type <;> simp [OwnerKind.isConvertible, ObjectType.isConvertible]
    | _ => simp [OwnerKind.isConvertible]
  have alone : ∀ other, (scene.Climbs id other → other = id) ↔
      (other ≠ id → ¬ scene.Climbs id other) := fun other => not_imp_not.symm
  rw [sources, List.mem_filter, Scene.mem_topLevel_iff acyclic]
  cases found : scene.owner? id with
  | none => simp
  | some owner =>
      simp only [Scene.contains, found, Option.isSome_some, and_true,
        alone, convertible, Option.some.injEq, exists_eq_left']
      exact and_right_comm.trans and_assoc

/-- Objects of which none lies beneath another one are not next to each
other. -/
theorem parentOf_source_ne
    {command : Convert}
    (acyclic : scene.Acyclic)
    {a b : OwnerId}
    (isA : a ∈ command.sources scene)
    (isB : b ∈ command.sources scene) :
    scene.parentOf a ≠ some b := by
  intro step
  have same := Scene.eq_of_climbs_topLevel acyclic (List.mem_filter.1 isA).1
    (List.mem_filter.1 isB).1 (.single step)
  subst same
  exact acyclic b b step (.refl scene b)

/-- A conversion that is recorded replaces objects by the paths made for
them. -/
theorem apply_of_changed
    {command : Convert}
    (unused : command.transition = none)
    (changed : (command.apply document).result = .ok .changed) :
    command.sources document.scene ≠ [] ∧ ∃ allocated pairs,
      pathsFor document (command.sources document.scene) =
        (allocated, .ok pairs) ∧
      command.apply document =
        .first command allocated
          (Std.ExtTreeSet.ofList
            ((command.sources document.scene).flatMap
                (touchedBy document.scene) ++
              (pairs.map fun pair => (pair.1, pair.2.id)).map Prod.snd))
          (replaceAll pairs) fun transition =>
          { command with
            converted := pairs.map fun pair => (pair.1, pair.2.id)
            transition := some transition } := by
  rw [apply, unused] at changed ⊢
  simp only at changed ⊢
  split at changed
  · cases changed
  · next nonempty =>
    refine ⟨by simpa using nonempty, ?_⟩
    rw [if_neg nonempty]
    unfold convertAll at changed ⊢
    split at changed
    · cases changed
    · next allocated pairs isPaths =>
      rw [isPaths]
      exact ⟨allocated, pairs, rfl, rfl⟩

/-- An ellipse that holds a rectangle, and a rectangle beside it; both have a
tag that refers to the other one. -/
def shapes : Snapshot where
  id := ⟨7⟩
  root := ⟨1⟩
  styles := [⟨4⟩]
  tools := [⟨2⟩]
  selection := [⟨3⟩, ⟨7⟩]
  clock := .new {}
  owners := [
    { id := ⟨1⟩, kind := .object .empty, properties := [],
      children := [⟨3⟩, ⟨6⟩] },
    { id := ⟨3⟩
      kind := .object .ellipse
      properties := [
        { Property.ofValue "visible" (.bool false) with
          track :=
            some ⟨⟨⟨3⟩, "visible"⟩, .bool, .step, [⟨1, .bool true, none⟩]⟩ },
        .ofValue "radius" (.float 2.0),
        .ofValue "segments" (.integer 4)]
      parent := some ⟨1⟩
      children := [⟨7⟩]
      tags := [⟨8⟩] },
    { id := ⟨8⟩
      kind := .tag .path
      properties :=
      [{ Property.referring "path" [.object] with
        value := .reference (some ⟨6⟩) }]
      parent := some ⟨3⟩ },
    { id := ⟨7⟩, kind := .object .rectangle, properties := [],
      parent := some ⟨3⟩ },
    { id := ⟨6⟩
      kind := .object .rectangle
      properties := [.ofValue "size" (.floatVector ⟨3.0, 1.0⟩)]
      parent := some ⟨1⟩
      tags := [⟨9⟩] },
    { id := ⟨9⟩
      kind := .tag .path
      properties :=
      [{ Property.referring "path" [.object] with
        value := .reference (some ⟨3⟩) }]
      parent := some ⟨6⟩ },
    { id := ⟨4⟩, kind := .style, properties := [] },
    { id := ⟨2⟩, kind := .tool .select, properties := [] }]

theorem wellFormed_shapes : (Document.unchecked shapes {}).WellFormed := by
  have loaded :
      Document.ofSnapshot shapes {} = .ok (Document.unchecked shapes {}) :=
    Document.ofSnapshot_eq_ok_iff.2
      ⟨by decide +kernel, by decide +kernel, by decide +kernel, rfl⟩
  refine Document.wellFormed_ofSnapshot loaded (List.nodup_singleton _)
    (List.nodup_singleton _) ?_
  exact Scene.forall_mem_toList.1 (by decide +kernel)

/-- The inner rectangle is listed too and stays, as it lies beneath the
ellipse. -/
def outlining : Convert where
  targets := [⟨7⟩, ⟨6⟩, ⟨4⟩, ⟨3⟩, ⟨6⟩]

end Convert
end MotionScene
