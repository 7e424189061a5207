import MotionScene.Proofs.Command.Lawful
import MotionScene.Proofs.Command.Renumbering

/-!
# Copying objects is lawful

The copies are registered all at once; only those of the topmost sources are
loose, and these are attached one after the other.
-/

namespace MotionScene
namespace CopyObjects

variable {scene : Scene} {top : List OwnerId} {start : Nat} {id : OwnerId}

/-! ## Registering the copies -/

/-- Exactly what lies within the sources is copied. -/
theorem copied_iff (linked : scene.Linked ∅) :
    (∃ new, (Renumbering.consecutive start (top.flatMap scene.subtree))[id]? =
      some new) ↔ ∃ source ∈ top, scene.Climbs id source := by
  rw [← Option.isSome_iff_exists, Std.ExtTreeMap.isSome_getElem?_iff_mem,
    Renumbering.mem_consecutive]
  simp only [List.mem_flatMap, linked.mem_subtree_iff]

/-- The parent of a source is not copied, when no source lies within another
one. -/
theorem parent_not_copied
    (linked : scene.Linked ∅)
    (alone : ∀ source ∈ top, ∀ other ∈ top, scene.Climbs source other →
      other = source)
    {source parent : OwnerId}
    (isSource : source ∈ top)
    (step : scene.parentOf source = some parent) :
    (Renumbering.consecutive start (top.flatMap scene.subtree))[parent]? =
      none := by
  by_contra found
  obtain ⟨other, isOther, above⟩ :=
    (copied_iff linked).1 (Option.ne_none_iff_exists'.1 found)
  have same := alone source isSource other isOther (.head step above)
  exact linked.acyclic source parent step (same ▸ above)

/-- Sources that do not lie within each other can be copied under numbers that
were never given out. -/
theorem fresh_consecutive
    (linked : scene.Linked ∅)
    (numbers : ∀ id, scene.contains id = true → id.number < start)
    (known : ∀ source ∈ top, scene.contains source = true)
    (alone : ∀ source ∈ top, ∀ other ∈ top, scene.Climbs source other →
      other = source) :
    (Renumbering.consecutive start (top.flatMap scene.subtree)).Fresh
      scene where
  injective id other new found otherFound := by
    have position := (Renumbering.position_of_consecutive found).2
    rw [(Renumbering.position_of_consecutive otherFound).2] at position
    exact (Option.some.inj position).symm
  absent id new found := by
    have above := (Renumbering.position_of_consecutive found).1
    by_contra exists_owner
    have below := numbers new (Option.isSome_iff_ne_none.2 exists_owner)
    omega
  known id new found := by
    obtain ⟨source, isSource, climbs⟩ := (copied_iff linked).1 ⟨new, found⟩
    refine Option.isSome_iff_exists.1 ?_
    rcases climbs.cases_head with rfl | ⟨parent, step, _⟩
    · exact known id isSource
    · exact Scene.contains_of_parentOf step
  whole id parent newParent step found := by
    obtain ⟨source, isSource, climbs⟩ :=
      (copied_iff linked).1 ⟨newParent, found⟩
    exact (copied_iff linked).2 ⟨source, isSource, .head step climbs⟩
  rooted id new found := by
    obtain ⟨source, isSource, climbs⟩ := (copied_iff linked).1 ⟨new, found⟩
    obtain ⟨newSource, sourceFound⟩ :
        ∃ new,
          (Renumbering.consecutive start (top.flatMap scene.subtree))[source]? =
            some new :=
      (copied_iff linked).2 ⟨source, isSource, .refl scene source⟩
    exact ⟨source, newSource, sourceFound, climbs,
      fun parent step => parent_not_copied linked alone isSource step⟩

theorem mem_copies {renumbering : Renumbering} {copy : Owner} :
    copy ∈ (renumbering.keys.filterMap scene.owner?).map renumbering.owner ↔
      ∃ id new owner, renumbering[id]? = some new ∧
        scene.owner? id = some owner ∧ renumbering.owner owner = copy := by
  simp only [List.mem_map, List.mem_filterMap, Std.ExtTreeMap.mem_keys,
    Std.ExtTreeMap.mem_iff_isSome_getElem?, Option.isSome_iff_exists]
  constructor
  · rintro ⟨owner, ⟨id, ⟨new, found⟩, known⟩, same⟩
    exact ⟨id, new, owner, found, known, same⟩
  · rintro ⟨id, new, owner, found, known, same⟩
    exact ⟨owner, ⟨id, ⟨new, found⟩, known⟩, same⟩

theorem id_of_copy
    {renumbering : Renumbering}
    {new : OwnerId}
    {owner : Owner}
    (found : renumbering[id]? = some new)
    (known : scene.owner? id = some owner) :
    (renumbering.owner owner).id = new := by
  refine Renumbering.image_of_some ?_
  rw [scene.id_of_owner? known]
  exact found

/-- The copies are registered one after the other. -/
theorem copies_foldl_insert
    {renumbering : Renumbering}
    (fresh : renumbering.Fresh scene) :
    renumbering.Copies scene
      (((renumbering.keys.filterMap scene.owner?).map renumbering.owner).foldl
        Scene.insert scene) := by
  have rest := scene.foldl_insert_eq
    ((renumbering.keys.filterMap scene.owner?).map renumbering.owner)
  constructor
  case root => rw [rest]
  case styles => rw [rest]
  case tools => rw [rest]
  case selection => rw [rest]
  case old =>
    intro id isOld
    refine Scene.owner?_foldl_insert_of_ne ?_
    intro copy member same
    obtain ⟨source, new, owner, found, known, rfl⟩ := mem_copies.1 member
    rw [id_of_copy found known] at same
    exact isOld source (same ▸ found)
  case copied =>
    intro id new owner found known
    rw [← id_of_copy found known]
    refine Scene.owner?_foldl_insert_of_mem ?_
      (mem_copies.2 ⟨id, new, owner, found, known, rfl⟩)
    intro a memberA b memberB same
    obtain ⟨idA, newA, ownerA, foundA, knownA, rfl⟩ := mem_copies.1 memberA
    obtain ⟨idB, newB, ownerB, foundB, knownB, rfl⟩ := mem_copies.1 memberB
    rw [id_of_copy foundA knownA, id_of_copy foundB knownB] at same
    subst same
    obtain rfl := fresh.injective idA idB newA foundA foundB
    rw [knownA] at knownB
    cases knownB
    rfl

/-- The loose copies are those of the sources. -/
theorem loose_copies
    {other : Scene}
    (linked : scene.Linked ∅)
    (alone : ∀ source ∈ top, ∀ other ∈ top, scene.Climbs source other →
      other = source)
    (fresh :
      (Renumbering.consecutive start (top.flatMap scene.subtree)).Fresh scene)
    (copies : (Renumbering.consecutive start (top.flatMap scene.subtree)).Copies
      scene other) :
    {new | new ∈
      (Renumbering.consecutive start (top.flatMap scene.subtree)).news ∧
        other.parentOf new = none} =
      {new | new ∈ top.filterMap fun id =>
        (Renumbering.consecutive start (top.flatMap scene.subtree))[id]?} := by
  ext new
  simp only [Set.mem_ofPred_eq, List.mem_filterMap]
  constructor
  · rintro ⟨⟨id, found⟩, parentless⟩
    rw [copies.parentOf_copied fresh found] at parentless
    obtain ⟨source, isSource, climbs⟩ := (copied_iff linked).1 ⟨new, found⟩
    rcases climbs.cases_head with rfl | ⟨parent, step, above⟩
    · exact ⟨id, isSource, found⟩
    · obtain ⟨newParent, parentFound⟩ :=
        (copied_iff linked).2 ⟨source, isSource, above⟩
      rw [step, Option.bind_some, parentFound] at parentless
      cases parentless
  · rintro ⟨source, isSource, found⟩
    refine ⟨⟨source, found⟩, ?_⟩
    rw [copies.parentOf_copied fresh found]
    exact Option.bind_eq_none_iff.2
      fun parent step => parent_not_copied linked alone isSource step

/-! ## Attaching the topmost copies -/

variable {touched : OwnerSet} {document middle : Document} {inserted : Scene}

theorem setOf_mem_rest {rest : List OwnerId} (later : id ∉ rest) :
    {other | other ∈ rest} = {other | other ∈ id :: rest} \ {id} := by
  ext other
  by_cases isId : other = id
  · subst isId
    simp [later]
  · simp [isId]

/-- What holds while copies are attached; some remain. -/
structure Attaching
    (touched : OwnerSet)
    (document : Document)
    (inserted : Scene)
    (rest : List OwnerId)
    (middle : Document) : Prop where
  touches : document.Touches touched middle
  numbers : middle.nextId = document.nextId
  linked : middle.scene.Linked {id | id ∈ rest}
  contents : ∀ id, middle.scene.content? id = inserted.content? id
  selection : middle.scene.selection = inserted.selection
  distinct : rest.Nodup
  isTouched : ∀ id ∈ rest, id ∈ touched

/-- One more copy is attached. -/
theorem Attaching.hung
    {rest : List OwnerId}
    {parent : OwnerId}
    {index : Nat}
    (parentTouched : parent ∈ touched)
    (attaching : Attaching touched document inserted (id :: rest) middle)
    (check : middle.scene.checkAttach id (.child parent index) = .ok ()) :
    Attaching touched document inserted rest
      { middle with scene := middle.scene.hung id (.child parent index) } := by
  obtain ⟨later, distinct⟩ := List.nodup_cons.1 attaching.distinct
  have isTouched := attaching.isTouched id List.mem_cons_self
  constructor
  case touches =>
    refine attaching.touches.withScene (.hung isTouched ?_)
    intro host belongs
    cases belongs
    exact parentTouched
  case numbers => exact attaching.numbers
  case linked =>
    rw [setOf_mem_rest later]
    exact attaching.linked.hung List.mem_cons_self check
  case contents =>
    exact fun other => (Scene.content?_hung other).trans
      (attaching.contents other)
  case selection => exact Scene.selection_hung.trans attaching.selection
  case distinct => exact distinct
  case isTouched =>
    exact fun other isRest =>
      attaching.isTouched other (List.mem_cons_of_mem id isRest)

theorem Attaching.run
    {parent : OwnerId}
    (parentTouched : parent ∈ touched)
    {copies : List OwnerId}
    (index : Nat)
    (attaching : Attaching touched document inserted copies middle) :
    (attachAll parent index copies).Ends middle
      (fun _ final => Attaching touched document inserted [] final)
      (document.Touches touched) := by
  induction copies generalizing index middle with
  | nil => exact attaching
  | cons id rest inductionHypothesis =>
      refine .bind (.attach ?_ attaching.touches)
      intro attached isAttached
      obtain ⟨check, rfl⟩ := Scene.attach_eq_ok_iff.1 isAttached
      exact inductionHypothesis (index + 1) (attaching.hung parentTouched check)

/-- Registering and attaching copies stays within the touched owners, and ends
in a well-formed document. -/
theorem ends_insertAll
    {command : CopyObjects}
    (wellFormed : document.WellFormed)
    {renumbering : Renumbering}
    {copies : List OwnerId}
    (fresh : renumbering.Fresh document.scene)
    (below : ∀ new ∈ renumbering.news, new.number < document.nextId)
    (distinct : copies.Nodup)
    (loose : ∀ other, renumbering.Copies document.scene other →
      {new | new ∈ renumbering.news ∧ other.parentOf new = none} =
        {new | new ∈ copies})
    (parentTouched : command.parent ∈ touched)
    (newsTouched : ∀ new ∈ renumbering.news, new ∈ touched) :
    (command.insertAll
      ((renumbering.keys.filterMap document.scene.owner?).map renumbering.owner)
      copies).Ends document
      (fun _ final => document.Touches touched final ∧ final.WellFormed)
      (document.Touches touched) := by
  have inserted := copies_foldl_insert fresh
  generalize ((renumbering.keys.filterMap document.scene.owner?).map
    renumbering.owner) = owners at inserted ⊢
  have linked :=
    (inserted.grows fresh wellFormed.linked).linked wellFormed.linked
  have sound := inserted.sound fresh wellFormed.sound
  rw [Set.empty_union, loose _ inserted] at linked
  have attaching : Attaching touched document
      (owners.foldl Scene.insert document.scene) copies
      { document with scene := owners.foldl Scene.insert document.scene } := by
    refine ⟨?_, rfl, linked, fun _ => rfl, rfl, distinct, ?_⟩
    · refine ⟨rfl, Nat.le_refl _, inserted.root, ?_⟩
      intro id outside
      exact inserted.old id fun source found =>
        outside (newsTouched id ⟨source, found⟩)
    · intro id member
      have isLoose : id ∈ {new | new ∈ copies} := member
      rw [← loose _ inserted] at isLoose
      exact newsTouched id isLoose.1
  refine .bind (.scene ((attaching.run parentTouched command.index).mono ?_))
  intro _ final attached
  refine ⟨attached.touches, Scene.wellFormed_iff.2 ⟨?_,
    sound.congr attached.contents attached.selection⟩, ?_⟩
  · have noneLeft : {id | id ∈ ([] : List OwnerId)} = (∅ : Set OwnerId) := by
      ext id
      simp
    rw [← noneLeft]
    exact attached.linked
  · intro id known
    rw [attached.numbers]
    rw [Scene.contains_eq_content?,
      attached.contents, ← Scene.contains_eq_content?] at known
    by_cases isNew : id ∈ renumbering.news
    · exact below id isNew
    · rw [Scene.contains, inserted.old id fun source found =>
        isNew ⟨source, found⟩] at known
      exact wellFormed.numbers id known

/-- Copying objects with everything beneath them is lawful. -/
theorem lawful
    {command : CopyObjects}
    (wellFormed : document.WellFormed)
    (unused : command.transition = none) :
    Lawful apply revert document (command.apply document) := by
  rw [apply, unused]
  simp only
  split
  · exact .ofFailed command _
  split
  · exact .ofIdle command
  unfold copyTop
  simp only
  have linked := wellFormed.linked
  have known : ∀ source ∈ document.scene.topLevel command.sources,
      document.scene.contains source = true :=
    fun _ isSource => Scene.contains_of_mem_topLevel isSource
  have alone : ∀ source ∈ document.scene.topLevel command.sources,
      ∀ other ∈ document.scene.topLevel command.sources,
        document.scene.Climbs source other → other = source :=
    fun _ isSource _ isOther =>
      Scene.eq_of_climbs_topLevel linked.acyclic isSource isOther
  have distinct := Scene.nodup_topLevel document.scene command.sources
  generalize document.scene.topLevel command.sources =
    top at known alone distinct ⊢
  have fresh := fresh_consecutive linked wellFormed.numbers known alone
  have later : document.nextId ≤ document.nextId +
      (top.flatMap document.scene.subtree).length :=
    Nat.le_add_right _ _
  split
  · exact .ofFailed command _
  next allocated isAllocated =>
  obtain ⟨_, rfl⟩ := Document.allocateMany_eq_ok_iff.1 isAllocated
  refine .first later (fun _ _ => rfl) (fun _ _ => rfl)
    (ends_insertAll (wellFormed.later later) fresh ?_ ?_ ?_ ?_ ?_)
  · rintro new ⟨id, found⟩
    obtain ⟨above, position⟩ := Renumbering.position_of_consecutive found
    obtain ⟨bound, _⟩ := List.getElem?_eq_some_iff.1 position
    simp only
    omega
  · refine distinct.filterMap ?_
    intro a b new foundA foundB
    exact fresh.injective a b new foundA foundB
  · exact fun other copies => loose_copies linked alone fresh copies
  · simp
  · rintro new ⟨id, found⟩
    have listed := Std.ExtTreeMap.mem_toList_iff_getElem?_eq_some.2 found
    simp only [Std.ExtTreeSet.mem_ofList, List.contains_eq_mem, List.mem_cons,
      List.mem_map, decide_eq_true_eq]
    exact Or.inr ⟨(id, new), listed, rfl⟩

end CopyObjects
end MotionScene
