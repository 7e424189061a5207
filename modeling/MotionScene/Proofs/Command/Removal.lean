import MotionScene.Command.Removal
import MotionScene.Proofs.Command.Redirection

/-!
# Removing owners is lawful

First the references from outside are cleared, then the topmost owners are taken
out of their slots, and last everything beneath them is erased.  What lies
beneath an owner is told by the parents the owners had at the start; taking the
topmost ones out changes the parents of these alone.
-/

namespace MotionScene
namespace RemoveOwners

variable {scene : Scene} {document cleared middle : Document}
  {top : List OwnerId} {touched : OwnerSet}

theorem mem_closure_of_top
    (linked : scene.Linked ∅)
    {id : OwnerId}
    (member : id ∈ top) :
    id ∈ scene.removalClosure top :=
  linked.mem_removalClosure.2 ⟨id, member, .refl scene id⟩

/-! ## Taking the topmost owners out -/

/-- What holds while owners are taken out of their slots; some remain. -/
structure Detaching
    (touched : OwnerSet)
    (document cleared : Document)
    (top rest : List OwnerId)
    (middle : Document) : Prop where
  touches : document.Touches touched middle
  numbers : middle.nextId = cleared.nextId
  linked : middle.scene.Linked {id | id ∈ top ∧ id ∉ rest}
  parents : ∀ id, id ∈ rest ∨ id ∉ top →
    middle.scene.parentOf id = cleared.scene.parentOf id
  contents : ∀ id, middle.scene.content? id = cleared.scene.content? id
  selection : middle.scene.selection = cleared.scene.selection
  listed : ∀ id ∈ rest, id ∈ top
  distinct : rest.Nodup

/-- One more owner is taken out. -/
theorem Detaching.released
    {id : OwnerId}
    {rest : List OwnerId}
    (detaching : Detaching touched document cleared top (id :: rest) middle)
    (isTouched : id ∈ touched)
    (hosts : ∀ host, cleared.scene.parentOf id = some host → host ∈ touched)
    {slot : Slot}
    (found : middle.scene.slotOf id = some slot) :
    Detaching touched document cleared top rest
      { middle with scene := middle.scene.released id slot } := by
  have isTop := detaching.listed id List.mem_cons_self
  obtain ⟨later, distinct⟩ := List.nodup_cons.1 detaching.distinct
  have slotHost := detaching.linked.parentOf_of_slotOf found
  rw [detaching.parents id (Or.inl List.mem_cons_self)] at slotHost
  have same : {other | other ∈ top ∧ other ∉ rest} =
      {other | other ∈ top ∧ other ∉ id :: rest} ∪ {id} := by
    ext other
    by_cases isId : other = id
    · subst isId
      simp [isTop, later]
    · simp [isId]
  constructor
  case touches =>
    refine detaching.touches.withScene (.released isTouched ?_)
    intro host belongs
    exact hosts host (slotHost.trans belongs)
  case numbers => exact detaching.numbers
  case linked =>
    rw [same]
    exact detaching.linked.released found
  case parents =>
    intro other remains
    have differs : id ≠ other := by
      rintro rfl
      rcases remains with isRest | outside
      · exact later isRest
      · exact outside isTop
    rw [Scene.parentOf_released, if_neg differs]
    exact detaching.parents other (remains.imp_left (List.mem_cons_of_mem id))
  case contents =>
    exact fun other => (Scene.content?_released other).trans
      (detaching.contents other)
  case selection => exact Scene.selection_released.trans detaching.selection
  case listed =>
    exact fun other isRest =>
      detaching.listed other (List.mem_cons_of_mem id isRest)
  case distinct => exact distinct

/-- Taking all of them out, one after the other. -/
theorem Detaching.run
    (isTouched : ∀ id ∈ top, id ∈ touched)
    (hosts : ∀ id ∈ top, ∀ host, cleared.scene.parentOf id = some host →
      host ∈ touched)
    (detaching : Detaching touched document cleared top top middle) :
    (top.forM fun id => discard (Change.detach id)).Ends middle
      (fun _ final => Detaching touched document cleared top [] final)
      (document.Touches touched) := by
  refine .forM ?_ detaching
  intro id rest middle detaching
  have isTop := detaching.listed id List.mem_cons_self
  refine .discard (.detach ?_ detaching.touches)
  intro scene slot isDetached
  obtain ⟨found, rfl⟩ := Scene.detach_eq_ok_iff.1 isDetached
  exact detaching.released (isTouched id isTop) (hosts id isTop) found

/-! ## Erasing what lies beneath them -/

theorem erases_eraseAll (ids : OwnerSet) :
    scene.Erases (eraseAll scene ids) {id | id ∈ ids} := by
  have rest := scene.foldl_erase_eq ids.toList
  constructor
  case root =>
    change (ids.toList.foldl Scene.erase scene).root = _
    rw [rest]
  case styles =>
    change (ids.toList.foldl Scene.erase scene).styles = _
    rw [rest]
  case tools =>
    change (ids.toList.foldl Scene.erase scene).tools = _
    rw [rest]
  case kept =>
    intro id isKept
    change (ids.toList.foldl Scene.erase scene).owner? id = _
    rw [Scene.owner?_foldl_erase, if_neg]
    exact mt Std.ExtTreeSet.mem_toList.1 isKept
  case lost =>
    intro id isGone
    change (ids.toList.foldl Scene.erase scene).owner? id = _
    rw [Scene.owner?_foldl_erase, if_pos]
    exact Std.ExtTreeSet.mem_toList.2 isGone

/-- Once the topmost owners are loose, exactly what lies beneath them is
erased. -/
theorem Detaching.linked_erased
    (linked : document.scene.Linked ∅)
    (links : document.scene.SameLinks cleared.scene)
    (detaching : Detaching touched document cleared top [] middle) :
    (eraseAll middle.scene (document.scene.removalClosure top)).Linked ∅ := by
  have parents : ∀ id, id ∉ top →
      middle.scene.parentOf id = document.scene.parentOf id :=
    fun id outside => (detaching.parents id (Or.inr outside)).trans
      (links.parent id)
  have looseTop : ∀ id ∈ top, id ∈ {id | id ∈ top ∧ id ∉ ([] : List OwnerId)} :=
    fun id isTop => ⟨isTop, List.not_mem_nil⟩
  refine (erases_eraseAll _).linked detaching.linked ?_ ?_
  · intro id parent step
    simp only [Set.mem_ofPred_eq, linked.mem_removalClosure]
    have outside : id ∉ top := by
      intro isTop
      rw [detaching.linked.loose_parent id (looseTop id isTop)] at step
      cases step
    rw [parents id outside] at step
    constructor
    · rintro ⟨root, isTop, climbs⟩
      rcases climbs.cases_head with rfl | ⟨above, first, rest⟩
      · exact absurd isTop outside
      · rw [step] at first
        cases first
        exact ⟨root, isTop, rest⟩
    · rintro ⟨root, isTop, climbs⟩
      exact ⟨root, isTop, .head step climbs⟩
  · intro id parentless
    simp only [Set.mem_ofPred_eq, linked.mem_removalClosure]
    constructor
    · rintro ⟨root, isTop, climbs⟩
      refine looseTop id ?_
      rcases climbs.cases_head with rfl | ⟨above, step, _⟩
      · exact isTop
      · by_contra outside
        rw [parents id outside, step] at parentless
        cases parentless
    · rintro ⟨isTop, _⟩
      exact ⟨id, isTop, .refl _ id⟩

/-- After the removal the document is well-formed. -/
theorem Detaching.wellFormed_erased
    (wellFormed : document.WellFormed)
    (redirecting : Redirecting touched document
      (document.scene.removalClosure top) none [] cleared)
    (detaching : Detaching touched document cleared top [] middle) :
    { middle with
      scene := eraseAll middle.scene
        (document.scene.removalClosure top) }.WellFormed := by
  have sound : middle.scene.Sound :=
    redirecting.sound.congr detaching.contents detaching.selection
  have unreferenced :
      middle.scene.Unreferenced (document.scene.removalClosure top) :=
    redirecting.unreferenced.congr detaching.contents
  have contained : ∀ id,
      middle.scene.contains id = document.scene.contains id := by
    intro id
    rw [Scene.contains_eq_content?,
      detaching.contents, ← Scene.contains_eq_content?,
      Scene.contains_eq_categoryOf,
      redirecting.links.category, ← Scene.contains_eq_categoryOf]
  have erases : middle.scene.Erases
      (eraseAll middle.scene (document.scene.removalClosure top))
      {id | id ∈ document.scene.removalClosure top} := erases_eraseAll _
  refine ⟨Scene.wellFormed_iff.2
    ⟨detaching.linked_erased wellFormed.linked redirecting.links,
      erases.sound sound unreferenced ?_⟩, ?_⟩
  · intro id isSelected
    have selected : id ∈ middle.scene.selection ∧
        id ∉ document.scene.removalClosure top := by
      simpa [eraseAll] using isSelected
    exact ⟨sound.selection id selected.1, selected.2⟩
  · intro id known
    rw [detaching.numbers, redirecting.numbers]
    refine wellFormed.numbers id ?_
    rw [← contained]
    by_cases isGone : id ∈ document.scene.removalClosure top
    · rw [Scene.contains, erases.lost id isGone] at known
      cases known
    · rw [Scene.contains, erases.kept id isGone] at known
      exact known

theorem sameOutside_eraseAll
    {ids : OwnerSet}
    (isTouched : ∀ id ∈ ids, id ∈ touched) :
    scene.SameOutside touched (eraseAll scene ids) := by
  refine ⟨(erases_eraseAll ids).root, ?_⟩
  intro id outside
  exact (erases_eraseAll ids).kept id fun isGone =>
    outside (isTouched id isGone)

/-- The removal stays within the touched owners, and ends in a well-formed
document. -/
theorem ends_removeAll
    (wellFormed : document.WellFormed)
    (distinct : top.Nodup)
    (closure : ∀ id ∈ document.scene.removalClosure top, id ∈ touched)
    (holders : ∀ reference ∈
      document.scene.holdersOf (document.scene.removalClosure top),
      reference.owner ∈ touched)
    (hosts : ∀ id ∈ top, ∀ host, document.scene.parentOf id = some host →
      host ∈ touched) :
    (removeAll
      (document.scene.holdersOf (document.scene.removalClosure top)) top
      (document.scene.removalClosure top)).Ends document
      (fun _ final => document.Touches touched final ∧ final.WellFormed)
      (document.Touches touched) := by
  have linked := wellFormed.linked
  have start :
      Redirecting touched document (document.scene.removalClosure top) none
      (document.scene.holdersOf (document.scene.removalClosure top)) document :=
    .start wellFormed.sound holders fun _ _ _ _ _ refers => by cases refers
  refine .bind ((start.run fun _ refers => by cases refers).mono ?_)
  intro _ cleared redirecting
  have detaching : Detaching touched document cleared top top cleared := by
    refine ⟨redirecting.touches, rfl, ?_, fun _ _ => rfl, fun _ => rfl, rfl,
      fun _ => id, distinct⟩
    have noneYet : {id | id ∈ top ∧ id ∉ top} = (∅ : Set OwnerId) := by
      ext id
      simp
    rw [noneYet]
    exact linked.congr redirecting.links
  refine .bind ((detaching.run
    (fun id member => closure id (mem_closure_of_top linked member))
    ?_).mono ?_)
  · intro id member host step
    rw [redirecting.links.parent] at step
    exact hosts id member host step
  · intro _ middle detached
    exact .scene ⟨detached.touches.withScene (sameOutside_eraseAll closure),
      detached.wellFormed_erased wellFormed redirecting⟩

theorem mem_touched {closure holders : OwnerSet} {id : OwnerId} :
    id ∈ RemoveOwners.touched scene top closure holders ↔
      (id ∈ closure ∨ id ∈ holders) ∨ ∃ root ∈ top,
        scene.parentOf root = some id := by
  simp only [RemoveOwners.touched, Std.ExtTreeSet.mem_ofList,
    List.contains_eq_mem, List.mem_append, Std.ExtTreeSet.mem_toList,
    List.mem_filterMap, decide_eq_true_eq]
  rfl

/-- Removing owners with everything beneath them is lawful. -/
theorem lawful
    {command : RemoveOwners}
    (wellFormed : document.WellFormed)
    (fresh : command.transition = none) :
    Lawful apply revert document (command.apply document) := by
  rw [apply, fresh]
  simp only
  split
  · exact .ofFailed command _
  split
  · exact .ofFailed command _
  split
  · exact .ofIdle command
  unfold removeTop
  simp only
  split
  · exact .ofFailed command _
  refine .first (Nat.le_refl _) (fun _ _ => rfl) (fun _ _ => rfl)
    (ends_removeAll wellFormed (Scene.nodup_topLevel _ _) ?_ ?_ ?_)
  · exact fun id member => mem_touched.2 (Or.inl (Or.inl member))
  · intro reference member
    refine mem_touched.2 (Or.inl (Or.inr ?_))
    have listed :
        reference.owner ∈ List.map Reference.owner (document.scene.holdersOf
        (document.scene.removalClosure
          (document.scene.topLevel command.roots))) :=
      List.mem_map_of_mem member
    simpa [Scene.holdingOwners] using listed
  · exact fun id member host step => mem_touched.2 (Or.inr ⟨id, member, step⟩)

end RemoveOwners
end MotionScene
