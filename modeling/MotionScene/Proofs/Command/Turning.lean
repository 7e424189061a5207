import MotionScene.Proofs.Command.Redirection

/-!
# What turned references leave

References are turned one property after the other, from a list that is made
beforehand.  In the end the listed properties have the new value and everything
else is as before.  When the list holds all references into a set of owners, the
owners outside are the same with the set renamed.
-/

namespace MotionScene

theorem map_eq_self
    {α : Type}
    {items : List α}
    {change : α → α}
    (unchanged : ∀ item ∈ items, change item = item) :
    items.map change = items :=
  (List.map_congr_left unchanged).trans (List.map_id' items)

/-- The value with a reference turned to another owner. -/
def Value.renamed (rename : OwnerId → OwnerId) : Value → Value
  | .reference target => .reference (target.map rename)
  | value => value

/-- The property with its reference turned to another owner. -/
def Property.renamed (rename : OwnerId → OwnerId) (property : Property) :
    Property :=
  { property with value := property.value.renamed rename }

/-- All references into a set turned to one owner. -/
theorem Property.renamed_ite
    (property : Property)
    (targets : OwnerSet)
    (new : OwnerId) :
    (property.renamed fun target => if target ∈ targets then new else target) =
      { property with
        value :=
          if property.value.target?.any (fun target => target ∈ targets) = true
            then .reference (some new) else property.value } := by
  obtain ⟨name, kind, value, constraints, track⟩ := property
  cases value with
  | reference target =>
      cases target with
      | none => rfl
      | some target =>
          by_cases inside : target ∈ targets <;>
            simp [renamed, Value.renamed, Value.target?, inside]
  | _ => rfl

/-- Among properties of different names, a change of the first one of a name is
a change of that one. -/
theorem Owner.changeFirst_of_nodup
    {properties : List Property}
    (nodup : (properties.map Property.name).Nodup)
    (name : String)
    (change : Property → Property) :
    changeFirst name change properties =
      properties.map fun property =>
        if property.name = name then change property else property := by
  induction properties with
  | nil => rfl
  | cons head rest inductionHypothesis =>
      rw [changeFirst, List.map_cons]
      split
      · next hit =>
        congr 1
        refine (map_eq_self fun property member => ?_).symm
        exact if_neg (hit ▸ name_ne_of_nodup nodup member)
      · rw [inductionHypothesis (List.nodup_cons.1 nodup).2]

namespace Scene

variable {scene middle : Scene} {value : Value} {done : List PropertyAddress}

/-- Another scene has a value in some properties. -/
structure Turned
    (scene : Scene)
    (value : Value)
    (done : List PropertyAddress)
    (final : Scene) : Prop where
  root : final.root = scene.root
  styles : final.styles = scene.styles
  tools : final.tools = scene.tools
  selection : final.selection = scene.selection
  owners : ∀ id, final.owner? id = (scene.owner? id).map fun owner =>
    { owner with
      properties := owner.properties.map fun property =>
        { property with
          value :=
            if ⟨id, property.name⟩ ∈ done then value else property.value } }

/-- One more property gets the value. -/
theorem Turned.stored
    (names : ∀ id owner, scene.owner? id = some owner →
      (owner.properties.map Property.name).Nodup)
    (turned : scene.Turned value done middle)
    {address : PropertyAddress}
    {property : Property}
    (found : middle.property address = .ok property) :
    scene.Turned value (done ++ [address])
      (middle.withProperty address { property with value }) where
  root := turned.root
  styles := turned.styles
  tools := turned.tools
  selection := turned.selection
  owners id := by
    rw [owner?_withProperty, turned.owners]
    split
    · next same =>
      subst same
      obtain ⟨changed, isChanged, named⟩ := property_eq_ok_iff.1 found
      rw [turned.owners, Option.map_eq_some_iff] at isChanged
      obtain ⟨owner, isOwner, rfl⟩ := isChanged
      rw [isOwner, Option.map_some, Option.map_some, Option.map_some,
        Owner.modifyProperty, ← Owner.changeFirst_eq
          (fun property => { property with value }) named,
        Owner.changeFirst_of_nodup
          (by simpa [Function.comp_def] using names _ _ isOwner),
        List.map_map]
      congr 2
      refine List.map_congr_left fun other _ => ?_
      have named_iff :
          (⟨address.owner, other.name⟩ : PropertyAddress) = address ↔
          other.name = address.property :=
        ⟨congrArg PropertyAddress.property, fun same => by rw [same]⟩
      simp only [Function.comp_apply, List.mem_append,
        List.mem_singleton, named_iff]
      by_cases hit : other.name = address.property <;> simp [hit]
    · next differs =>
      have unnamed : ∀ name, (⟨id, name⟩ : PropertyAddress) ≠ address :=
        fun name same => differs (congrArg PropertyAddress.owner same).symm
      simp only [List.mem_append, List.mem_singleton, unnamed, or_false]

/-- What holds while listed properties get the value; some remain. -/
def Turning
    (scene : Scene)
    (value : Value)
    (references rest : List Reference)
    (middle : Document) : Prop :=
  ∃ done, references = done ++ rest ∧
    scene.Turned value (done.map Reference.address) middle.scene

/-- All listed properties get the value, unless one of them does not exist. -/
theorem Turning.run
    {document : Document}
    (names : ∀ id owner, document.scene.owner? id = some owner →
      (owner.properties.map Property.name).Nodup)
    (references : List Reference)
    (value : Value) :
    (references.forM fun reference =>
      Change.assign reference value).Ends document
      (fun _ final => document.scene.Turning value references [] final)
        (fun _ => True) := by
  have start : document.scene.Turning value references references document :=
    ⟨[], rfl, rfl, rfl, rfl, rfl, fun id => by simp⟩
  refine .forM ?_ start
  rintro reference rest middle ⟨done, split, turned⟩
  refine .assign ?_ trivial
  intro stored isStored
  obtain ⟨property, found, rfl⟩ := store_eq_ok_iff.1 isStored
  refine ⟨done ++ [reference], by rw [split, List.append_assoc]; rfl, ?_⟩
  rw [List.map_append]
  exact turned.stored names found

theorem Turning.turned
    {references : List Reference}
    {final : Document}
    (turning : scene.Turning value references [] final) :
    scene.Turned value (references.map Reference.address) final.scene := by
  obtain ⟨done, split, turned⟩ := turning
  rwa [split, List.append_nil]

/-- With the listed references turned, the owners outside refer to the new owner
wherever they referred into the set. -/
theorem Turned.owner?_eq_renamed
    {targets : OwnerSet}
    {new : OwnerId}
    (sound : scene.Sound)
    (turned : scene.Turned (.reference (some new))
      ((scene.holdersOf targets).map Reference.address) middle)
    {id : OwnerId}
    (outside : id ∉ targets) :
    middle.owner? id = (scene.owner? id).map fun owner =>
      { owner with
        properties := owner.properties.map
          (Property.renamed fun target =>
            if target ∈ targets then new else target) } := by
  rw [turned.owners]
  cases found : scene.owner? id with
  | none => rfl
  | some owner =>
      rw [Option.map_some, Option.map_some]
      congr 2
      refine List.map_congr_left fun property member => ?_
      rw [Property.renamed_ite]
      simp only [sound.holds_iff found outside member]

end Scene

end MotionScene
