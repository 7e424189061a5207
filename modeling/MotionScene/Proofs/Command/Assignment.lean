import MotionScene.Command.Assignment
import MotionScene.Proofs.Command.Lawful

/-!
# Setting properties and the selection is lawful

Values are stored owner by owner and put back in the opposite order.  As every
owner is taken once, the value it had at the start is still the one it has when
its turn comes.
-/

namespace MotionScene

namespace Scene

theorem store_eq_ok_iff
    {scene stored : Scene}
    {owner : OwnerId}
    {name : String}
    {value : Value} :
    scene.store owner name value = .ok stored ↔
      ∃ property, scene.property ⟨owner, name⟩ = .ok property ∧
        stored = scene.withProperty ⟨owner, name⟩ { property with value } :=
  modifyProperty_eq_ok_iff

end Scene

namespace SetSelection

/-- Replacing the selection is lawful. -/
theorem lawful
    {document : Document}
    (wellFormed : document.WellFormed)
    (command : SetSelection) :
    Lawful apply revert document (command.apply document) := by
  rw [apply]
  split
  · exact .ofFailed command _
  · next allKnown =>
    split
    · exact .ofIdle command
    · next differs =>
      have known : ∀ id ∈ command.selection,
          document.scene.contains id = true := by
        intro id member
        simpa using List.find?_eq_none.1 allKnown id
          (Std.ExtTreeSet.mem_toList.2 member)
      have sound := wellFormed.sound
      refine .ofScene ?_ ⟨?_, ?_⟩
      · refine wellFormed.withScene ?_ ?_ fun _ => id
        · exact wellFormed.linked.congr ⟨rfl, fun _ => rfl, fun _ => rfl,
            fun place => by cases place <;> rfl⟩
        · exact ⟨sound.owners, sound.references, known⟩
      · intro again same
        simp [revert, same]
      · intro again same
        rw [apply]
        simp only [same, allKnown, if_neg differs]

end SetSelection

namespace SetProperty

variable {scene : Scene} {name : String}

/-- An owner has the property, with the old value, and may have the new one. -/
def Planned (scene : Scene) (name : String)
    (item : OwnerId × Value × Value) : Prop :=
  ∃ property, scene.property ⟨item.1, name⟩ = .ok property ∧
    property.value = item.2.1 ∧
    item.2.2.kind = property.kind ∧ scene.Permits property.constraints item.2.2

theorem checkReference_eq_ok_iff {property : Property} {value : Value} :
    checkReference scene property name value = .ok () ↔
      scene.Permits property.constraints value := by
  unfold checkReference Scene.Permits Scene.categoryOf
  cases value.target? with
  | none => simp
  | some target =>
      cases found : scene.owner? target with
      | none => simp [found]
      | some owner =>
          cases allowed : property.constraints.allows owner.kind.category <;>
            simp [found, allowed]

theorem planned_of_prepareOne
    {command : SetProperty}
    {owner : OwnerId}
    {item : OwnerId × Value × Value}
    (prepared : command.prepareOne scene owner = .ok item) :
    item.1 = owner ∧ Planned scene command.property item := by
  unfold prepareOne at prepared
  obtain ⟨property, found, prepared⟩ := Attempt.bind_eq_ok_iff.1 prepared
  obtain ⟨value, coerced, prepared⟩ := Attempt.bind_eq_ok_iff.1 prepared
  obtain ⟨_, checked, same⟩ := Attempt.bind_eq_ok_iff.1 prepared
  cases same
  exact ⟨rfl, property, found, rfl, Property.kind_of_coerce coerced,
    checkReference_eq_ok_iff.1 checked⟩

theorem planned_of_prepare
    {command : SetProperty}
    {plan : List (OwnerId × Value × Value)}
    (prepared : command.prepare scene = .ok plan) :
    plan.map Prod.fst = command.targets ∧ ∀ item ∈ plan,
      Planned scene command.property item := by
  have all := Attempt.mapM_eq_ok_iff.1 prepared
  clear prepared
  generalize command.targets = targets at all
  induction all with
  | nil => simp
  | cons first _ inductionHypothesis =>
      obtain ⟨same, planned⟩ := planned_of_prepareOne first
      simp only [List.map_cons, List.mem_cons, forall_eq_or_imp, same,
        inductionHypothesis.1]
      exact ⟨trivial, planned, inductionHypothesis.2⟩

theorem storeAll_append
    {middle : Scene}
    {first : List (OwnerId × Value)}
    (stored : storeAll scene name first = (middle, .ok ()))
    (second : List (OwnerId × Value)) :
    storeAll scene name (first ++ second) = storeAll middle name second := by
  induction first generalizing scene with
  | nil =>
      cases stored
      rfl
  | cons item rest inductionHypothesis =>
      simp only [List.cons_append, storeAll] at stored ⊢
      cases outcome : scene.store item.1 name item.2 with
      | error fault => simp [outcome] at stored
      | ok next =>
          rw [outcome] at stored
          exact inductionHypothesis stored

/-- The values of other owners stay planned when one is stored. -/
theorem Planned.withProperty
    {owner : OwnerId}
    (property : Property)
    (named : property.name = name)
    {item : OwnerId × Value × Value}
    (differs : item.1 ≠ owner)
    (planned : Planned scene name item) :
    Planned (scene.withProperty ⟨owner, name⟩ property) name item := by
  obtain ⟨found, known, old, kind, permits⟩ := planned
  refine ⟨found, ?_, old, kind, permits.mono ?_⟩
  · rw [Scene.property_withProperty_of_ne property named]
    · exact known
    · intro same
      exact differs (congrArg PropertyAddress.owner same)
  · intro id category
    rw [Scene.sameLinks_withProperty.category]
    exact fun known => known

/-- Planned values can all be stored, and the old ones put back last first. -/
theorem storeAll_planned
    {plan : List (OwnerId × Value × Value)}
    (linked : scene.Linked ∅)
    (sound : scene.Sound)
    (distinct : (plan.map Prod.fst).Nodup)
    (planned : ∀ item ∈ plan, Planned scene name item) :
    ∃ final,
      storeAll scene name (plan.map fun item => (item.1, item.2.2)) =
        (final, .ok ()) ∧
      storeAll final name (plan.map fun item => (item.1, item.2.1)).reverse =
        (scene, .ok ()) ∧
      final.Linked ∅ ∧ final.Sound ∧ ∀ id,
        final.contains id = scene.contains id := by
  induction plan generalizing scene with
  | nil => exact ⟨scene, rfl, rfl, linked, sound, fun _ => rfl⟩
  | cons item rest inductionHypothesis =>
      obtain ⟨owner, old, new⟩ := item
      obtain ⟨fresh, distinctRest⟩ := List.nodup_cons.1 distinct
      obtain ⟨property, found, isOld, kind, permits⟩ :=
        planned _ List.mem_cons_self
      simp only at found isOld kind permits
      have named := Scene.name_of_property found
      have propertySound := (sound.of_property found).1
      have stored : scene.store owner name new =
          .ok
            (scene.withProperty ⟨owner, name⟩ { property with value := new }) :=
        Scene.store_eq_ok_iff.2 ⟨property, found, rfl⟩
      have restored :
          (scene.withProperty ⟨owner, name⟩
            { property with value := new }).store
          owner name old = .ok scene := by
        refine Scene.store_eq_ok_iff.2
          ⟨_, Scene.property_withProperty _ named found, ?_⟩
        rw [Scene.withProperty_withProperty
          { property with value := new } _ named, ← isOld]
        exact (Scene.withProperty_self found).symm
      obtain ⟨final, forward, backward, finalLinked, finalSound, finalKnown⟩ :=
        inductionHypothesis (linked.congr Scene.sameLinks_withProperty)
          (sound.withProperty { property with value := new } named
            ⟨kind, propertySound.track_fits⟩ permits) distinctRest (by
            intro item member
            refine (planned item (List.mem_cons_of_mem _ member)).withProperty
              { property with value := new } named ?_
            intro same
            exact fresh (List.mem_map.2 ⟨item, member, same⟩))
      refine ⟨final, ?_, ?_, finalLinked, finalSound, ?_⟩
      · simp only [List.map_cons, storeAll, stored]
        exact forward
      · rw [List.map_cons, List.reverse_cons, storeAll_append backward]
        simp only [storeAll, restored]
      · intro id
        rw [finalKnown, Scene.contains_withProperty]

/-- Assigning a value to owners that are all different is lawful. -/
theorem lawful
    {document : Document}
    (wellFormed : document.WellFormed)
    {command : SetProperty}
    (distinct : command.targets.Nodup) :
    Lawful apply revert document (command.apply document) := by
  rw [apply]
  cases prepared : command.prepare document.scene with
  | error fault => exact .ofFailed command fault
  | ok plan =>
      simp only
      split
      · exact .ofIdle command
      · next differs =>
        obtain ⟨same, planned⟩ := planned_of_prepare prepared
        obtain ⟨final, forward, backward, linked, sound, known⟩ :=
          storeAll_planned wellFormed.linked wellFormed.sound
            (same ▸ distinct) planned
        simp only [forward]
        refine .ofScene (wellFormed.withScene linked sound ?_) ⟨?_, ?_⟩
        · intro id member
          rwa [known] at member
        · intro again isAfter
          simp only [revert, isAfter, backward]
        · intro again isBefore
          have preparedAgain : prepare { command with
              previous := plan.map fun item =>
                (item.1, item.2.1) } again.scene = .ok plan := by
            rw [isBefore]
            exact prepared
          rw [apply]
          simp only [preparedAgain]
          rw [if_neg differs]
          simp only [isBefore, forward]
          rfl

end SetProperty
end MotionScene
