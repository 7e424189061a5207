import MotionScene.Proofs.Document.Counting
import MotionScene.Proofs.Scene.Content

/-!
# New owners are sound

An owner is made by a document and may be given a name, values and a geometry
before it is added.  It has no links and no tracks, and every value is of the
kind of its property.
-/

namespace MotionScene

namespace Property

/-- A property without a track, whose value is of its kind; names are
strings. -/
@[mk_iff] structure Pristine (property : Property) : Prop where
  value_kind : property.value.kind = property.kind
  no_track : property.track = none
  name_kind : property.name = "name" → property.kind = .string

theorem Pristine.sound
    {property : Property}
    (pristine : property.Pristine)
    (owner : OwnerId) :
    property.Sound owner := by
  refine ⟨pristine.value_kind, ?_⟩
  intro track isTrack
  rw [pristine.no_track] at isTrack
  cases isTrack

end Property

namespace Owner

/-- An owner that a document made, possibly with a name, values and a geometry
given to it since. -/
inductive Made : Owner → Prop where
  | created
      {document after : Document}
      {kind : OwnerKind}
      {owner : Owner}
      (isCreated : document.createOwner kind = .ok (after, owner)) :
      Made owner
  | named {owner : Owner} (made : Made owner) (name : String) :
      Made (owner.withName name)
  | assigned
      {owner changed : Owner}
      (made : Made owner)
      {name : String}
      {value : Value}
      (isAssigned : owner.withValue name value = .ok changed) :
      Made changed
  | shaped {owner : Owner} (made : Made owner) (geometry : Path Float) :
      Made (owner.withGeometry geometry)

theorem Made.ofKind
    {id : OwnerId}
    (room : id.number + 1 < OwnerId.limit)
    (kind : OwnerKind)
    (paths : PathSettings) :
    (Owner.ofKind id kind paths).Made :=
  let document := { Document.empty ⟨0⟩ { paths } with nextId := id.number }
  .created (document.createOwner_eq_ok_iff.2 ⟨room, rfl, rfl⟩)

/-- An owner without links, with pristine properties of different names, and
with a geometry if it is a path. -/
structure Pristine (owner : Owner) : Prop where
  unlinked : owner.content = owner
  geometry_iff : owner.geometry.isSome = owner.kind.isPath
  names : (owner.properties.map Property.name).Nodup
  properties : ∀ property ∈ owner.properties, property.Pristine

/-! ## The properties an owner starts with -/

/-- Default properties are pristine, and refer to nothing yet. -/
theorem pristine_of_default
    (kind : OwnerKind)
    (settings : PathSettings) :
    ∀ property ∈ defaultProperties kind settings,
      property.Pristine ∧ property.value.target? = none := by
  rcases kind with (_ | _ | _ | _) | (_ | _) | _ | _ <;>
    simp [defaultProperties, commonProperties, shapeProperties, tagProperties,
      styleProperties, toolProperties, Property.pristine_iff, Property.ofValue,
      Property.withBounds, Property.withMin, Property.withStep,
      Property.settled, Property.constrain, Property.choice, Property.referring,
      Constraints.constrain, Value.kind, Value.target?]

theorem nodup_default (kind : OwnerKind) (settings : PathSettings) :
    ((defaultProperties kind settings).map Property.name).Nodup := by
  rcases kind with (_ | _ | _ | _) | (_ | _) | _ | _ <;>
    simp [defaultProperties, commonProperties, shapeProperties, tagProperties,
      styleProperties, toolProperties, Property.ofValue, Property.withBounds,
      Property.withMin, Property.withStep, Property.settled, Property.choice,
      Property.referring]

theorem ofKind_pristine
    (id : OwnerId)
    (kind : OwnerKind)
    (settings : PathSettings) :
    (ofKind id kind settings).Pristine where
  unlinked := rfl
  geometry_iff := by
    unfold ofKind new
    cases kind.isPath <;> rfl
  names := nodup_default kind settings
  properties property member :=
    (pristine_of_default kind settings property member).1

/-! ## Changes of a new owner -/

theorem changeFirst_of_absent
    {name : String}
    {properties : List Property}
    (absent : properties.find? (fun property => property.name == name) = none)
    (change : Property → Property) :
    changeFirst name change properties = properties := by
  induction properties with
  | nil => rfl
  | cons first rest inductionHypothesis =>
      have missing := List.find?_eq_none.1 absent
      have differs : first.name ≠ name := by
        simpa using missing first List.mem_cons_self
      rw [List.find?_cons_of_neg (by simpa using differs)] at absent
      rw [changeFirst, if_neg differs, inductionHypothesis absent]

namespace Pristine

variable {owner : Owner}

/-- The property of a name may be replaced by another pristine one. -/
theorem modifyProperty
    (pristine : owner.Pristine)
    {name : String}
    {change : Property → Property}
    (kept : ∀ property ∈ owner.properties, property.name = name →
      (change property).name = name ∧ (change property).Pristine) :
    (owner.modifyProperty name change).Pristine := by
  have unlinked : (owner.modifyProperty name change).content =
      owner.modifyProperty name change := by
    rw [← pristine.unlinked]
    rfl
  cases found : owner.property? name with
  | none =>
      have same : owner.modifyProperty name change = owner := by
        rw [Owner.modifyProperty, changeFirst_of_absent found]
      rw [same]
      exact pristine
  | some property =>
      obtain ⟨named, isPristine⟩ :=
        kept property (List.mem_of_find?_eq_some found)
          (name_of_find? found)
      have same : owner.modifyProperty name change =
          owner.modifyProperty name fun _ => change property := by
        rw [Owner.modifyProperty, changeFirst_eq change found]
        rfl
      rw [same] at unlinked ⊢
      refine ⟨unlinked, pristine.geometry_iff, ?_, ?_⟩
      · rw [Owner.modifyProperty, map_name_changeFirst named]
        exact pristine.names
      · intro other member
        rcases mem_changeFirst pristine.names member with rfl | ⟨original, _⟩
        · exact isPristine
        · exact pristine.properties other original

theorem withName (pristine : owner.Pristine) (name : String) :
    (owner.withName name).Pristine := by
  refine pristine.modifyProperty ?_
  intro property member named
  have original := pristine.properties property member
  exact ⟨named, (original.name_kind named).symm, original.no_track,
    original.name_kind⟩

theorem withValue
    (pristine : owner.Pristine)
    {name : String}
    {value : Value}
    {changed : Owner}
    (isAssigned : owner.withValue name value = .ok changed) :
    changed.Pristine := by
  unfold Owner.withValue at isAssigned
  cases found : owner.property? name with
  | none =>
      rw [found] at isAssigned
      cases isAssigned
  | some property =>
      rw [found] at isAssigned
      obtain ⟨replaced, assigned, same⟩ := Attempt.bind_eq_ok_iff.1 isAssigned
      cases replaced with
      | none =>
          cases same
          exact pristine
      | some replacement =>
          cases same
          have original :=
            pristine.properties property (List.mem_of_find?_eq_some found)
          have named := name_of_find? found
          refine pristine.modifyProperty fun _ _ _ => ?_
          unfold Property.assign? at assigned
          obtain ⟨coerced, isCoerced, decided⟩ :=
            Attempt.bind_eq_ok_iff.1 assigned
          split at decided
          · cases decided
          · cases decided
            exact ⟨named, Property.kind_of_coerce isCoerced, original.no_track,
              original.name_kind⟩

theorem withGeometry (pristine : owner.Pristine) (geometry : Path Float) :
    (owner.withGeometry geometry).Pristine := by
  refine ⟨?_, ?_, pristine.names, pristine.properties⟩
  · rw [← pristine.unlinked]
    rfl
  · have kept : (owner.withGeometry geometry).kind = owner.kind := rfl
    rw [kept, ← pristine.geometry_iff]
    simp [Owner.withGeometry]

theorem sound (pristine : owner.Pristine) : owner.Sound :=
  ⟨pristine.geometry_iff, pristine.names,
    fun property member => (pristine.properties property member).sound owner.id⟩

end Pristine

theorem Made.pristine {owner : Owner} (made : owner.Made) : owner.Pristine := by
  induction made with
  | created isCreated =>
      rw [(Document.createOwner_eq_ok_iff.1 isCreated).2.2]
      exact ofKind_pristine _ _ _
  | named _ name inductionHypothesis => exact inductionHypothesis.withName name
  | assigned _ isAssigned inductionHypothesis =>
      exact inductionHypothesis.withValue isAssigned
  | shaped _ geometry inductionHypothesis =>
      exact inductionHypothesis.withGeometry geometry

/-- An owner that a document made is sound, whatever it was given since. -/
theorem Made.sound {owner : Owner} (made : owner.Made) : owner.Sound :=
  made.pristine.sound

end Owner
end MotionScene
