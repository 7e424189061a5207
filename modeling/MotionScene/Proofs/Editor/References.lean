import MotionScene.Proofs.Editor.Running

/-!
# References

A property may restrict what it refers to by the category of the owner.  Setting
a property checks this, copying and converting keep it, and removing an owner
clears what refers to it.  Adding owners only checks that what they refer to is
there, so the rule holds as long as nothing is added that breaks it.
-/

namespace MotionScene
namespace Editor

/-- Whatever is done with a new document, every reference leads to an owner of
an allowed category. -/
theorem references_permitted_of_run
    (id : DocumentId)
    (settings : Settings)
    {actions : List Action}
    (admitted : (new id settings).Admits actions) :
    let scene := ((new id settings).run actions).document.scene
    ∀ holder owner, scene.owner? holder = some owner →
      ∀ property ∈ owner.properties, ∀ target,
        property.value.target? = some target →
        ∃ found, scene.owner? target = some found ∧
          property.constraints.allows found.kind.category = true := by
  intro scene holder owner isOwner property member target refers
  have follows :=
    (follows_ofDocument settings
      (Document.wellFormed_new id settings)).run admitted
  have permits := follows.wellFormed.sound.references holder owner.content
    (Scene.content?_of_owner? isOwner) property member
  obtain ⟨category, known, allowed⟩ := permits target refers
  obtain ⟨found, isFound, rfl⟩ := (Scene.categoryOf_eq_some_iff _).1 known
  exact ⟨found, isFound, allowed⟩

/-! ## Tags that refer to styles -/

/-- A new tag that refers to an owner. -/
def tagFor (id target : OwnerId) : Owner :=
  (Owner.ofKind id (.tag .style) {}).modifyProperty "style" fun _ =>
    { Property.referring "style" [.style] with
      value := .reference (some target) }

/-- The tag is a new one that was given a value. -/
theorem withValue_tagFor (id target : OwnerId) :
    (Owner.ofKind id (.tag .style) {}).withValue "style"
        (.reference (some target)) =
      .ok (tagFor id target) :=
  rfl

theorem made_tagFor
    {id : OwnerId}
    (room : id.number + 1 < OwnerId.limit)
    (target : OwnerId) :
    (tagFor id target).Made :=
  .assigned (.ofKind room (.tag .style) {}) (withValue_tagFor id target)

theorem target_of_tagFor
    {id target found : OwnerId}
    {property : Property}
    (member : property ∈ (tagFor id target).properties)
    (refers : property.value.target? = some found) :
    found = target ∧ property.constraints.referenceFilter = some [.style] := by
  have properties : (tagFor id target).properties =
      [.ofValue "name" (.string "Style Tag"),
        { Property.referring "style" [.style] with
          value := .reference (some target) }] := rfl
  rw [properties, List.mem_cons, List.mem_singleton] at member
  rcases member with rfl | rfl
  · cases refers
  · exact ⟨(Option.some.inj refers).symm, rfl⟩

/-- An ellipse with a tag that refers to a style. -/
def styled : List NewOwner :=
  [⟨.ofKind ⟨3⟩ (.object .ellipse) {}, .child ⟨1⟩ 0⟩,
    ⟨.ofKind ⟨4⟩ .style {}, .style 0⟩,
    ⟨tagFor ⟨5⟩ ⟨4⟩, .tag ⟨3⟩ 0⟩]

theorem styled_admissible
    {scene : Scene}
    (missing : scene.categoryOf ⟨4⟩ = none) :
    AddOwners.Admissible { items := styled } scene := by
  constructor
  case sound =>
    simp only [styled, List.forall_mem_cons]
    exact ⟨(Owner.ofKind_pristine _ _ _).sound,
      (Owner.ofKind_pristine _ _ _).sound, (made_tagFor (by decide) _).sound,
      List.forall_mem_nil _⟩
  case distinct => decide
  case allowed =>
    intro item member property isProperty target refers category isCategory
    have silent : ∀ kind, property ∈ Owner.defaultProperties kind {} →
        property.constraints.allows category = true := by
      intro kind isDefault
      rw [(Owner.pristine_of_default kind {} property isDefault).2] at refers
      cases refers
    simp only [styled, List.mem_cons, List.not_mem_nil, or_false] at member
    rcases member with rfl | rfl | rfl
    · exact silent (.object .ellipse) isProperty
    · exact silent .style isProperty
    · obtain ⟨rfl, filter⟩ := target_of_tagFor isProperty refers
      rcases isCategory with known | ⟨other, isOther, same, rfl⟩
      · cases missing.symm.trans known
      · simp only [styled, List.mem_cons, List.not_mem_nil, or_false] at isOther
        rcases isOther with rfl | rfl | rfl
        · cases same
        · rw [Constraints.allows, filter]
          rfl
        · cases same

/-- Draws the ellipse and copies it, removes the style, and takes that back. -/
def restyling : List Action :=
  [.createOwner (.object .ellipse), .createOwner .style,
    .createOwner (.tag .style),
    .push (.single (.addOwners { items := styled })),
    .push
      (.single (.copyObjects { sources := [⟨3⟩], parent := ⟨1⟩, index := 1 })),
    .push
      (.single (.removeOwners
        { roots := [⟨4⟩], confirmed := true, label := "Remove" })),
    .undo]

theorem restyling_admitted : (new ⟨0⟩ {}).Admits restyling := by
  refine ⟨trivial, trivial, trivial, ⟨.addOwners _, ?_⟩,
    Edit.Fresh.admissible (.copyObjects _ _ _) nofun _,
    Edit.Fresh.admissible (.removeOwners _ _ _) nofun _, trivial, trivial⟩
  rintro _ ⟨⟩
  exact styled_admissible (Document.categoryOf_new ⟨0⟩ {} ⟨4⟩)

theorem references_permitted_restyling :
    let scene := ((new ⟨0⟩ {}).run restyling).document.scene
    (scene.owner? ⟨7⟩).map Owner.references = some [⟨⟨7⟩, "style", ⟨4⟩⟩] ∧
      ∀ holder owner, scene.owner? holder = some owner →
        ∀ property ∈ owner.properties, ∀ target,
          property.value.target? = some target →
          ∃ found, scene.owner? target = some found ∧
            property.constraints.allows found.kind.category = true :=
  ⟨rfl, references_permitted_of_run ⟨0⟩ {} restyling_admitted⟩

/-- Tags the root with a reference to the root itself. -/
def mistagging : List Action :=
  [.createOwner (.tag .style),
    .push (.single (.addOwners { items := [⟨tagFor ⟨3⟩ ⟨1⟩, .tag ⟨1⟩ 0⟩] }))]

/-- A new tag may be added although it refers to an object where only a style is
allowed. -/
theorem reference_unfiltered_mistagging :
    let scene := ((new ⟨0⟩ {}).run mistagging).document.scene
    (tagFor ⟨3⟩ ⟨1⟩).Made ∧
      ∃ owner, scene.owner? ⟨3⟩ = some owner ∧
        ∃ property ∈ owner.properties, property.value.target? = some ⟨1⟩ ∧
          ∃ found, scene.owner? ⟨1⟩ = some found ∧
            property.constraints.allows found.kind.category = false :=
  ⟨made_tagFor (by decide) ⟨1⟩, _, rfl, _,
    List.mem_cons_of_mem _ List.mem_cons_self, rfl, _, rfl, rfl⟩

end Editor
end MotionScene
