import MotionScene.Proofs.Scene.Registering
import MotionScene.Proofs.Track.Keyframes

/-!
# The content of owners

What an owner holds beside its links: properties, their values and tracks, and
the geometry of a path.  A scene is sound when the content of every owner is in
order, references point at owners they may point at, and selected owners exist.
Properties and geometries are cells of a scene: what was put last is found, and
putting back what was there takes a change back.
-/

namespace MotionScene

namespace Track

/-- A track is one that a property of a kind may have. -/
structure Fits (track : Track) (address : PropertyAddress) (kind : ValueKind) :
    Prop where
  animatable : kind.isAnimatable = true
  kind_eq : track.kind = kind
  target_eq : track.target = address
  ascending : Scene.ascending track.frames = true
  checked : ∀ keyframe ∈ track.keyframes, track.check keyframe = .ok ()

/-- A track fits another property of the same kind once it names that one as its
target. -/
theorem Fits.retargeted
    {track : Track}
    {address : PropertyAddress}
    {kind : ValueKind}
    (fits : track.Fits address kind)
    (target : PropertyAddress) :
    { track with target }.Fits target kind where
  animatable := fits.animatable
  kind_eq := fits.kind_eq
  target_eq := rfl
  ascending := fits.ascending
  checked keyframe member := by
    have checked := check_eq_ok_iff.1 (fits.checked keyframe member)
    exact check_eq_ok_iff.2 checked

end Track

namespace Property

/-- A property whose value and track are of its kind. -/
structure Sound (property : Property) (owner : OwnerId) : Prop where
  value_kind : property.value.kind = property.kind
  track_fits : ∀ track, property.track = some track →
    track.Fits ⟨owner, property.name⟩ property.kind

/-- A value that a property accepts is of its kind. -/
theorem kind_of_coerce
    {property : Property}
    {value coerced : Value}
    (isCoerced : property.coerce value = .ok coerced) :
    coerced.kind = property.kind := by
  unfold coerce at isCoerced
  split at isCoerced
  · next fits =>
    cases isCoerced
    exact (Constraints.kind_constrain _ _).trans fits
  · cases isCoerced

end Property

namespace Owner

/-- An owner with sound properties of different names, and with a geometry if it
is a path. -/
structure Sound (owner : Owner) : Prop where
  geometry_iff : owner.geometry.isSome = owner.kind.isPath
  names : (owner.properties.map Property.name).Nodup
  properties : ∀ property ∈ owner.properties, property.Sound owner.id

theorem Sound.congr
    {owner other : Owner}
    (sound : owner.Sound)
    (same : other.content = owner.content) :
    other.Sound := by
  have id_eq : other.id = owner.id := Owner.mk.inj same |>.1
  have kind_eq : other.kind = owner.kind := Owner.mk.inj same |>.2.1
  have geometry_eq : other.geometry = owner.geometry :=
    Owner.mk.inj same |>.2.2.2.2.2.2
  have properties_eq : other.properties = owner.properties :=
    Owner.mk.inj same |>.2.2.1
  constructor
  · rw [geometry_eq, kind_eq]
    exact sound.geometry_iff
  · rw [properties_eq]
    exact sound.names
  · rw [properties_eq, id_eq]
    exact sound.properties

end Owner

namespace Scene

variable {scene other : Scene}

/-- A value refers to nothing, or to an existing owner of an allowed
category. -/
def Permits (scene : Scene) (constraints : Constraints)
    (value : Value) : Prop :=
  ∀ target, value.target? = some target →
    ∃ category, scene.categoryOf target = some category ∧
      constraints.allows category = true

/-- The content of every owner is in order, and so is the selection. -/
structure Sound (scene : Scene) : Prop where
  owners : ∀ id content, scene.content? id = some content → content.Sound
  references : ∀ id content, scene.content? id = some content →
    ∀ property ∈ content.properties,
      scene.Permits property.constraints property.value
  selection : ∀ id ∈ scene.selection, scene.contains id

theorem content?_eq_some_iff {id : OwnerId} {content : Owner} :
    scene.content? id = some content ↔
      ∃ owner, scene.owner? id = some owner ∧ owner.content = content := by
  simp [content?]

theorem content?_of_owner?
    {id : OwnerId}
    {owner : Owner}
    (found : scene.owner? id = some owner) :
    scene.content? id = some owner.content :=
  content?_eq_some_iff.2 ⟨owner, found, rfl⟩

theorem contains_eq_content? (id : OwnerId) :
    scene.contains id = (scene.content? id).isSome := by
  simp [contains, content?]

/-- Whether a reference is allowed depends on the categories of owners alone. -/
theorem Permits.mono
    {constraints : Constraints}
    {value : Value}
    (permits : scene.Permits constraints value)
    (categories : ∀ id category, scene.categoryOf id = some category →
      other.categoryOf id = some category) :
    other.Permits constraints value := by
  intro target refers
  obtain ⟨category, known, allowed⟩ := permits target refers
  exact ⟨category, categories target category known, allowed⟩

namespace Sound

theorem owner
    (sound : scene.Sound)
    {id : OwnerId}
    {owner : Owner}
    (found : scene.owner? id = some owner) :
    owner.Sound :=
  (sound.owners id owner.content (content?_of_owner? found)).congr rfl

/-- Links are no part of what is sound. -/
theorem congr
    (sound : scene.Sound)
    (contents : ∀ id, other.content? id = scene.content? id)
    (selection : other.selection = scene.selection) :
    other.Sound := by
  constructor
  · intro id content found
    rw [contents] at found
    exact sound.owners id content found
  · intro id content found property member
    rw [contents] at found
    refine (sound.references id content found property member).mono ?_
    intro target category known
    rw [categoryOf_eq_content?, contents, ← categoryOf_eq_content?]
    exact known
  · intro id member
    rw [selection] at member
    rw [contains_eq_content?, contents, ← contains_eq_content?]
    exact sound.selection id member

end Sound

end Scene

/-! ## Lists of properties -/

namespace Owner

variable {name : String} {property : Property} {properties : List Property}

theorem name_of_find?
    (found : properties.find? (fun property => property.name == name) =
      some property) :
    property.name = name := by
  simpa using List.find?_some found

/-- A change of the first property of a name puts another one in its place. -/
theorem changeFirst_eq
    (change : Property → Property)
    (found : properties.find? (fun property => property.name == name) =
      some property) :
    changeFirst name change properties =
      changeFirst name (fun _ => change property) properties := by
  induction properties with
  | nil => rfl
  | cons first rest inductionHypothesis =>
      rw [List.find?_cons] at found
      unfold changeFirst
      split at found
      · next hit =>
        cases found
        rw [if_pos (by simpa using hit), if_pos (by simpa using hit)]
      · next miss =>
        rw [if_neg (by simpa using miss), if_neg (by simpa using miss),
          inductionHypothesis found]

theorem changeFirst_self
    (found : properties.find? (fun property => property.name == name) =
      some property) :
    changeFirst name (fun _ => property) properties = properties := by
  induction properties with
  | nil => rfl
  | cons first rest inductionHypothesis =>
      rw [List.find?_cons] at found
      unfold changeFirst
      split at found
      · next hit =>
        cases found
        rw [if_pos (by simpa using hit)]
      · next miss =>
          rw [if_neg (by simpa using miss), inductionHypothesis found]

theorem changeFirst_changeFirst
    {first second : Property}
    (kept : first.name = name) :
    changeFirst name (fun _ => second)
        (changeFirst name (fun _ => first) properties) =
      changeFirst name (fun _ => second) properties := by
  induction properties with
  | nil => rfl
  | cons head rest inductionHypothesis =>
      simp only [changeFirst]
      split
      · simp [changeFirst, kept]
      · next miss => simp [changeFirst, miss, inductionHypothesis]

theorem find?_changeFirst_self
    {replacement : Property}
    (kept : replacement.name = name)
    (found : properties.find? (fun property => property.name == name) =
      some property) :
    (changeFirst name (fun _ => replacement) properties).find?
      (fun property => property.name == name) = some replacement := by
  induction properties with
  | nil => cases found
  | cons head rest inductionHypothesis =>
      simp only [changeFirst]
      split
      · simp [kept]
      · next miss =>
        rw [List.find?_cons_of_neg (by simpa using miss)] at found ⊢
        exact inductionHypothesis found

theorem find?_changeFirst_of_ne
    {replacement : Property}
    (kept : replacement.name = name)
    {other : String}
    (differs : other ≠ name) :
    (changeFirst name (fun _ => replacement) properties).find?
        (fun property => property.name == other) =
      properties.find? fun property => property.name == other := by
  induction properties with
  | nil => rfl
  | cons head rest inductionHypothesis =>
      simp only [changeFirst]
      split
      · next hit =>
        rw [List.find?_cons_of_neg (by simpa [kept] using differs.symm),
          List.find?_cons_of_neg (by simpa [hit] using differs.symm)]
      · simp only [List.find?_cons, inductionHypothesis]

theorem map_name_changeFirst
    {replacement : Property}
    (kept : replacement.name = name) :
    (changeFirst name (fun _ => replacement) properties).map Property.name =
      properties.map Property.name := by
  induction properties with
  | nil => rfl
  | cons head rest inductionHypothesis =>
      simp only [changeFirst]
      split
      · next hit => simp [kept, hit]
      · simp [inductionHypothesis]

theorem name_ne_of_nodup
    {head : Property}
    {rest : List Property}
    (nodup : ((head :: rest).map Property.name).Nodup)
    (member : property ∈ rest) :
    property.name ≠ head.name := by
  intro same
  rw [List.map_cons, List.nodup_cons] at nodup
  exact nodup.1 (same ▸ List.mem_map_of_mem member)

/-- Among properties of different names, replacing one keeps exactly those of
other names. -/
theorem mem_changeFirst
    {replacement : Property}
    (nodup : (properties.map Property.name).Nodup)
    (member : property ∈ changeFirst name (fun _ => replacement) properties) :
    property = replacement ∨
      (property ∈ properties ∧ property.name ≠ name) := by
  induction properties with
  | nil => cases member
  | cons head rest inductionHypothesis =>
      simp only [changeFirst] at member
      split at member
      · next hit =>
        rcases List.mem_cons.1 member with same | later
        · exact Or.inl same
        · exact Or.inr
            ⟨List.mem_cons_of_mem head later,
              hit ▸ name_ne_of_nodup nodup later⟩
      · next miss =>
        rcases List.mem_cons.1 member with rfl | later
        · exact Or.inr ⟨List.mem_cons_self, miss⟩
        · exact (inductionHypothesis
            (List.nodup_cons.1 nodup).2 later).imp_right
            (And.imp_left (List.mem_cons_of_mem head))

/-- Among properties of different names, the first one of a name is the only
one. -/
theorem find?_of_mem
    (nodup : (properties.map Property.name).Nodup)
    (member : property ∈ properties) :
    properties.find? (fun other => other.name == property.name) =
      some property := by
  induction properties with
  | nil => cases member
  | cons head rest inductionHypothesis =>
      rcases List.mem_cons.1 member with rfl | later
      · rw [List.find?_cons_of_pos (by simp)]
      · rw [List.find?_cons_of_neg
          (by simpa using (name_ne_of_nodup nodup later).symm)]
        exact inductionHypothesis (List.nodup_cons.1 nodup).2 later

end Owner

/-! ## Properties as cells of a scene -/

namespace Scene

variable {scene : Scene} {address : PropertyAddress} {property : Property}

/-- The scene with a property put in the place of the one it has. -/
def withProperty
    (scene : Scene)
    (address : PropertyAddress)
    (property : Property) :
    Scene :=
  scene.modify address.owner fun owner =>
    owner.modifyProperty address.property fun _ => property

theorem owner_eq_ok_iff {id : OwnerId} {found : Owner} :
    scene.owner id = .ok found ↔ scene.owner? id = some found := by
  unfold owner
  cases scene.owner? id <;> simp

theorem property_eq_ok_iff :
    scene.property address = .ok property ↔
      ∃ owner, scene.owner? address.owner = some owner ∧
        owner.property? address.property = some property := by
  simp only [Scene.property, Attempt.bind_eq_ok_iff, owner_eq_ok_iff]
  refine exists_congr fun owner => and_congr_right fun _ => ?_
  cases owner.property? address.property <;> simp

/-- Properties are found in the content of an owner. -/
theorem property_eq_ok_iff_content :
    scene.property address = .ok property ↔
      ∃ content, scene.content? address.owner = some content ∧
        content.property? address.property = some property := by
  rw [property_eq_ok_iff]
  simp only [content?_eq_some_iff, exists_exists_and_eq_and]
  rfl

theorem name_of_property (found : scene.property address = .ok property) :
    property.name = address.property := by
  obtain ⟨owner, _, named⟩ := property_eq_ok_iff.1 found
  exact Owner.name_of_find? named

theorem modifyProperty_eq_ok_iff
    {change : Property → Property}
    {changed : Scene} :
    scene.modifyProperty address change = .ok changed ↔
      ∃ property, scene.property address = .ok property ∧
        changed = scene.withProperty address (change property) := by
  simp only [modifyProperty, Attempt.bind_eq_ok_iff, Attempt.pure_eq_ok,
    Except.ok.injEq]
  refine exists_congr fun property => and_congr_right fun found => ?_
  have same : (scene.modify address.owner fun owner =>
      owner.modifyProperty address.property change) =
      scene.withProperty address (change property) := by
    obtain ⟨owner, known, named⟩ := property_eq_ok_iff.1 found
    have changed : owner.modifyProperty address.property change =
        owner.modifyProperty address.property fun _ => change property := by
      unfold Owner.modifyProperty
      rw [Owner.changeFirst_eq change named]
    refine ext_of_owners ?_ rfl rfl rfl rfl
    intro id
    simp only [withProperty, owner?_modify, known, Option.map_some, changed]
  rw [same, eq_comm]

theorem owner?_withProperty (id : OwnerId) :
    (scene.withProperty address property).owner? id =
      if address.owner = id then
        (scene.owner? id).map fun owner =>
          owner.modifyProperty address.property fun _ => property
      else scene.owner? id := by
  rw [withProperty, owner?_modify]
  split
  · next same => rw [same]; rfl
  · rfl

/-- What was put last is found. -/
theorem property_withProperty
    {found : Property}
    (replacement : Property)
    (named : replacement.name = address.property)
    (known : scene.property address = .ok found) :
    (scene.withProperty address replacement).property address =
      .ok replacement := by
  obtain ⟨owner, exists_owner, first⟩ := property_eq_ok_iff.1 known
  refine property_eq_ok_iff.2
    ⟨owner.modifyProperty address.property fun _ => replacement, ?_, ?_⟩
  · rw [owner?_withProperty, if_pos rfl, exists_owner]
    rfl
  · exact Owner.find?_changeFirst_self named first

/-- Other properties stay. -/
theorem property_withProperty_of_ne
    (replacement : Property)
    (named : replacement.name = address.property)
    {other : PropertyAddress}
    (differs : other ≠ address) :
    (scene.withProperty address replacement).property other =
      scene.property other := by
  unfold Scene.property Scene.owner
  rw [owner?_withProperty]
  by_cases same : address.owner = other.owner
  · have names : other.property ≠ address.property := by
      intro equal
      apply differs
      cases other
      cases address
      simp_all
    rw [if_pos same]
    cases scene.owner? other.owner with
    | none => rfl
    | some owner =>
        simp only [Option.map_some, Attempt.ok_bind]
        have kept :
            (owner.modifyProperty address.property
              fun _ => replacement).property?
            other.property = owner.property? other.property :=
          Owner.find?_changeFirst_of_ne named names
        rw [kept]
  · rw [if_neg same]

/-- Putting twice is putting the second time. -/
theorem withProperty_withProperty
    (first second : Property)
    (named : first.name = address.property) :
    (scene.withProperty address first).withProperty address second =
      scene.withProperty address second := by
  refine ext_of_owners ?_ rfl rfl rfl rfl
  intro id
  simp only [owner?_withProperty]
  split
  · rw [Option.map_map]
    congr 1
    funext owner
    simp only [Function.comp, Owner.modifyProperty,
      Owner.changeFirst_changeFirst named]
  · rfl

/-- Putting what is there changes nothing. -/
theorem withProperty_self (found : scene.property address = .ok property) :
    scene.withProperty address property = scene := by
  refine ext_of_owners ?_ rfl rfl rfl rfl
  intro id
  rw [owner?_withProperty]
  split
  · next same =>
    obtain ⟨owner, known, named⟩ := property_eq_ok_iff.1 found
    rw [← same, known, Option.map_some, Owner.modifyProperty,
      Owner.changeFirst_self named]
  · rfl

theorem sameLinks_withProperty :
    scene.SameLinks (scene.withProperty address property) :=
  sameLinks_modify _ (fun _ => rfl) (fun _ => rfl) (fun _ => rfl) (fun _ => rfl)

theorem contains_withProperty (id : OwnerId) :
    (scene.withProperty address property).contains id = scene.contains id := by
  rw [contains_eq_categoryOf, contains_eq_categoryOf,
    sameLinks_withProperty.category]

namespace Sound

theorem of_property
    (sound : scene.Sound)
    (found : scene.property address = .ok property) :
    property.Sound address.owner ∧
      scene.Permits property.constraints property.value := by
  obtain ⟨owner, known, named⟩ := property_eq_ok_iff.1 found
  have member : property ∈ owner.properties := List.mem_of_find?_eq_some named
  have properties := (sound.owner known).properties property member
  rw [scene.id_of_owner? known] at properties
  exact ⟨properties,
    sound.references _ _ (content?_of_owner? known) property member⟩

/-- A sound property may be put in the place of another one. -/
theorem withProperty
    (sound : scene.Sound)
    (property : Property)
    (named : property.name = address.property)
    (isSound : property.Sound address.owner)
    (permits : scene.Permits property.constraints property.value) :
    (scene.withProperty address property).Sound := by
  have categories : ∀ id category, scene.categoryOf id = some category →
      (scene.withProperty address property).categoryOf id = some category := by
    intro id category known
    rw [sameLinks_withProperty.category]
    exact known
  constructor
  · intro id content found
    obtain ⟨changed, known, rfl⟩ := content?_eq_some_iff.1 found
    rw [owner?_withProperty] at known
    split at known
    · next same =>
      obtain ⟨owner, original, rfl⟩ := Option.map_eq_some_iff.1 known
      have ownerSound := sound.owner original
      refine ⟨ownerSound.geometry_iff, ?_, ?_⟩
      · change (Owner.changeFirst _ _ owner.properties |>.map
          Property.name).Nodup
        rw [Owner.map_name_changeFirst named]
        exact ownerSound.names
      · intro other member
        have id_eq : owner.id = address.owner :=
          (scene.id_of_owner? original).trans same.symm
        rcases Owner.mem_changeFirst ownerSound.names member with
          rfl | ⟨member, _⟩
        · exact id_eq ▸ isSound
        · exact ownerSound.properties other member
    · exact (sound.owner known).congr rfl
  · intro id content found other member
    obtain ⟨changed, known, rfl⟩ := content?_eq_some_iff.1 found
    rw [owner?_withProperty] at known
    split at known
    · obtain ⟨owner, original, rfl⟩ := Option.map_eq_some_iff.1 known
      rcases Owner.mem_changeFirst (sound.owner original).names member with
        rfl | ⟨member, _⟩
      · exact permits.mono categories
      · exact (sound.references id _
          (content?_of_owner? original) other member).mono categories
    · exact (sound.references id _ (content?_of_owner? known) other member).mono
        categories
  · intro id member
    rw [contains_withProperty]
    exact sound.selection id member

end Sound

end Scene
end MotionScene
