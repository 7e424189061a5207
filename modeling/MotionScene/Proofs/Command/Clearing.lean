import MotionScene.Proofs.Command.Redirection

/-!
# Clearing references by name

References are found wherever they stand among the properties of an owner, but
they are cleared through the names of the properties.  A name leads to the first
property that has it, so a later property of the same name keeps its reference.
-/

namespace MotionScene

/-- The property, referring to nothing. -/
def Property.cleared (property : Property) : Property :=
  { property with value := .reference none }

namespace Owner

variable {asked : String → Bool} {properties : List Property}
  {property : Property}

/-- Properties with the first one of every name that is asked for cleared. -/
def clearFirst (asked : String → Bool) : List Property → List Property
  | [] => []
  | property :: rest =>
    (if asked property.name then property.cleared else property) ::
      clearFirst (fun name => asked name && name ≠ property.name) rest

/-- Clearing one name before others clears it as well. -/
theorem clearFirst_changeFirst
    (asked : String → Bool)
    (name : String)
    (properties : List Property) :
    clearFirst asked (changeFirst name Property.cleared properties) =
      clearFirst (fun other => asked other || other = name) properties := by
  induction properties generalizing asked with
  | nil => rfl
  | cons head rest inductionHypothesis =>
      by_cases hit : head.name = name
      · have others :
            (fun other => (asked other || other = name) && other ≠ head.name) =
            fun other => asked other && other ≠ head.name := by
          funext other
          by_cases same : other = name <;> simp [same, hit]
        simp only [changeFirst, if_pos hit, clearFirst, others]
        simp [hit, Property.cleared]
      · have others :
            (fun other => (asked other || other = name) && other ≠ head.name) =
            fun other => (asked other && other ≠ head.name) ||
              other = name := by
          funext other
          by_cases same : other = name
          · simp [same, Ne.symm hit]
          · simp [same]
        simp only [changeFirst, if_neg hit, clearFirst, others,
          inductionHypothesis]
        simp [hit]

theorem clearFirst_of_unasked (unasked : ∀ name, asked name = false) :
    clearFirst asked properties = properties := by
  induction properties generalizing asked with
  | nil => rfl
  | cons head rest inductionHypothesis =>
      rw [clearFirst, unasked,
        inductionHypothesis fun name => by simp [unasked]]
      rfl

/-- Among properties of different names, every one that is asked for is
cleared. -/
theorem clearFirst_of_nodup
    (asked : String → Bool)
    (nodup : (properties.map Property.name).Nodup) :
    clearFirst asked properties =
      properties.map fun property =>
        if asked property.name then property.cleared else property := by
  induction properties generalizing asked with
  | nil => rfl
  | cons head rest inductionHypothesis =>
      rw [clearFirst, inductionHypothesis _ (List.nodup_cons.1 nodup).2,
        List.map_cons]
      congr 1
      refine List.map_congr_left fun property member => ?_
      simp [name_ne_of_nodup nodup member]

/-- A property keeps its reference if and only if its name is not asked for or
an earlier property has the same name. -/
theorem mem_clearFirst_iff
    {target : OwnerId}
    (refers : property.value.target? = some target) :
    property ∈ clearFirst asked properties ↔
      ∃ before after, properties = before ++ property :: after ∧
        (asked property.name = true →
          property.name ∈ before.map Property.name) := by
  induction properties generalizing asked with
  | nil => simp [clearFirst]
  | cons head rest inductionHypothesis =>
      rw [clearFirst, List.mem_cons, inductionHypothesis]
      constructor
      · rintro (isHead | ⟨before, after, rfl, shadowed⟩)
        · split at isHead
          · rw [isHead] at refers
            cases refers
          · next unasked =>
            subst isHead
            exact ⟨[], rest, rfl, fun isAsked => absurd isAsked unasked⟩
        · refine ⟨head :: before, after, rfl, fun isAsked => ?_⟩
          rw [List.map_cons, List.mem_cons]
          by_cases same : property.name = head.name
          · exact Or.inl same
          · exact Or.inr (shadowed (by simp [isAsked, same]))
      · rintro ⟨before, after, split, shadowed⟩
        cases before with
        | nil =>
            obtain ⟨rfl, rfl⟩ := List.cons.inj split
            refine Or.inl (if_neg fun isAsked => ?_).symm
            cases shadowed isAsked
        | cons first others =>
            obtain ⟨rfl, rfl⟩ := List.cons.inj split
            refine Or.inr ⟨others, after, rfl, fun isAsked => ?_⟩
            simp only [Bool.and_eq_true, decide_eq_true_eq] at isAsked
            exact (List.mem_cons.1 (shadowed isAsked.1)).resolve_left isAsked.2

end Owner

namespace Scene

variable {scene : Scene}

/-- The scene with references cleared, each through the name of its property. -/
def clear (scene : Scene) (references : List Reference) : Scene :=
  references.foldl (fun scene reference =>
    scene.modify reference.owner fun owner =>
      owner.modifyProperty reference.property Property.cleared) scene

/-- Clearing references changes the properties that they name, and nothing
else. -/
theorem owner?_clear
    (scene : Scene)
    (references : List Reference)
    (id : OwnerId) :
    (scene.clear references).owner? id = (scene.owner? id).map fun owner =>
      { owner with
        properties := Owner.clearFirst
          (fun name => ⟨id, name⟩ ∈ references.map Reference.address)
          owner.properties } := by
  induction references generalizing scene with
  | nil => simp [clear, Owner.clearFirst_of_unasked]
  | cons reference rest inductionHypothesis =>
      rw [clear, List.foldl_cons, ← clear, inductionHypothesis, owner?_modify]
      by_cases same : reference.owner = id
      · subst same
        rw [if_pos rfl, Option.map_map]
        refine congrArg (Option.map · _) (funext fun owner => ?_)
        simp only [Function.comp_apply, Owner.modifyProperty,
          Owner.clearFirst_changeFirst]
        congr 2
        funext name
        by_cases isName : name = reference.property <;>
          simp [isName, Reference.address]
      · rw [if_neg same]
        refine congrArg (Option.map · _) (funext fun owner => ?_)
        congr 2
        funext name
        simp [Reference.address, Ne.symm same]

theorem clear_eq (scene : Scene) (references : List Reference) :
    scene.clear references =
      { scene with owners := (scene.clear references).owners } := by
  induction references generalizing scene with
  | nil => rfl
  | cons reference rest inductionHypothesis => exact inductionHypothesis _

theorem sameLinks_clear (scene : Scene) (references : List Reference) :
    scene.SameLinks (scene.clear references) := by
  induction references generalizing scene with
  | nil => exact .refl scene
  | cons reference rest inductionHypothesis =>
      refine SameLinks.trans ?_ (inductionHypothesis _)
      exact sameLinks_modify _ (fun _ => rfl) (fun _ => rfl)
        (fun _ => rfl) fun _ => rfl

/-- A property that is listed as a reference is found by its name, though
another may come first. -/
theorem exists_property_of_mem_references
    {reference : Reference}
    (listed : reference ∈ scene.references) :
    ∃ property, scene.property reference.address = .ok property := by
  obtain ⟨owner, property, found, member, named, _⟩ := references_iff.1 listed
  have hit :
      (owner.properties.find? fun other =>
        other.name == reference.property).isSome := by
    rw [List.find?_isSome]
    exact ⟨property, member, by simpa using named⟩
  obtain ⟨first, isFirst⟩ := Option.isSome_iff_exists.1 hit
  exact ⟨first, property_eq_ok_iff.2 ⟨owner, found, isFirst⟩⟩

/-- Clearing one reference. -/
theorem store_cleared
    {reference : Reference}
    {property : Property}
    (found : scene.property reference.address = .ok property) :
    scene.store reference.owner reference.property (.reference none) =
      .ok (scene.clear [reference]) := by
  unfold store modifyProperty
  rw [show (⟨reference.owner, reference.property⟩ : PropertyAddress) =
    reference.address from rfl, found]
  rfl

end Scene

/-- Clearing references that stand somewhere works out. -/
theorem Change.Ends.clear
    {document : Document}
    {references : List Reference}
    {bad : Document → Prop}
    (found : ∀ reference ∈ references, ∃ property,
      document.scene.property reference.address = .ok property) :
    (references.forM fun reference =>
      Change.assign reference (.reference none)).Ends document
      (fun _ final => final =
        { document with scene := document.scene.clear references }) bad := by
  induction references generalizing document with
  | nil => rfl
  | cons reference rest inductionHypothesis =>
      obtain ⟨property, isProperty⟩ := found reference List.mem_cons_self
      have stored := Scene.store_cleared isProperty
      obtain ⟨first, isFirst, same⟩ := Scene.store_eq_ok_iff.1 stored
      have named := Scene.name_of_property isFirst
      change (Change.assign reference (.reference none) >>= fun _ =>
        rest.forM _).Ends document _ bad
      refine .bind
        (.succeed (Attempt.map_eq_ok_iff.2 ⟨_, stored, rfl⟩)
          (inductionHypothesis ?_))
      intro other isRest
      obtain ⟨otherProperty, isOther⟩ :=
        found other (List.mem_cons_of_mem reference isRest)
      simp only [same]
      by_cases again : other.address = ⟨reference.owner, reference.property⟩
      · rw [again]
        exact ⟨_,
          Scene.property_withProperty
            { first with value := .reference none } named isFirst⟩
      · rw [Scene.property_withProperty_of_ne
          { first with value := .reference none } named again]
        exact ⟨otherProperty, isOther⟩

end MotionScene
