import MotionScene.Proofs.Document.Distinct
import MotionScene.Proofs.Json.Printing

/-!
# Fingerprints identify scenes

The bytes that the fingerprint of a scene digests determine the scene, as far as
its doubles are stored:  a double that is not finite is stored as null, so
scenes that differ only in such doubles are digested alike.
-/

namespace MotionScene

/-! ## Stored trees are printable -/

namespace Json

theorem printable_present
    {slots : List (String × Option Json)}
    (each : ∀ slot ∈ slots, ∀ value ∈ slot.2, value.Printable) :
    (Json.obj (present slots)).Printable := by
  refine .obj fun field member => ?_
  obtain ⟨slot, slotMember, written⟩ := List.mem_filterMap.1 member
  obtain ⟨value, present, rfl⟩ := Option.map_eq_some_iff.1 written
  exact each slot slotMember value present

@[simp] theorem printable_bool (value : Bool) :
    (Json.bool value).Printable := by
  cases value
  · exact .no
  · exact .yes

@[simp] theorem printable_int (value : Int) : (Json.int value).Printable :=
  .int value

@[simp] theorem printable_str (value : String) : (Json.str value).Printable :=
  .str value

@[simp] theorem printable_ofFloat (x : Float) : (ofFloat x).Printable := by
  unfold ofFloat
  split
  · next finite => exact .float finite
  · exact .null

variable {α : Type} {encode : α → Json}

theorem printable_ofList (each : ∀ a, (encode a).Printable) (items : List α) :
    (ofList encode items).Printable :=
  .arr (List.forall_mem_map.2 fun a _ => each a)

theorem printable_ofOption
    (each : ∀ a, (encode a).Printable)
    (value : Option α) :
    (ofOption encode value).Printable := by
  cases value with
  | none => exact .null
  | some a => exact each a

theorem printable_of_mem_filled
    (each : ∀ a, (encode a).Printable)
    {items : List α}
    {tree : Json}
    (member : tree ∈ filled encode items) :
    tree.Printable := by
  unfold filled at member
  split at member
  · cases member
  · cases member
    exact printable_ofList each items

end Json

@[simp] theorem OwnerId.printable_toJson (id : OwnerId) : id.toJson.Printable :=
  .int _

@[simp] theorem Point.printable_toJson (point : Point Float) :
    point.toJson.Printable := by
  rw [toJson_eq_slots]
  exact Json.printable_present (by simp [slots])

@[simp] theorem Color.printable_toJson (color : Color) :
    color.toJson.Printable := by
  rw [toJson_eq_slots]
  exact Json.printable_present (by simp [slots])

theorem Value.printable_of_mem_content
    {value : Value}
    {tree : Json}
    (member : tree ∈ value.content) :
    tree.Printable := by
  cases value with
  | reference target =>
      cases member
      exact Json.printable_ofOption OwnerId.printable_toJson target
  | integerVector x y =>
      cases member
      exact .arr (by simp)
  | trigger => cases member
  | bool | integer | float | string | color | options | floatVector =>
      cases member
      simp [Json.ofNat]

@[simp] theorem Value.printable_toJson (value : Value) :
    value.toJson.Printable := by
  rw [toJson_eq_slots]
  refine Json.printable_present ?_
  simp only [slots, List.forall_mem_cons]
  exact ⟨by simp, fun _ => printable_of_mem_content, by simp⟩

@[simp] theorem Tangents.printable_toJson (tangents : Tangents) :
    tangents.toJson.Printable := by
  rw [toJson_eq_slots]
  exact Json.printable_present (by simp [slots, Json.printable_ofList])

@[simp] theorem Keyframe.printable_toJson (keyframe : Keyframe) :
    keyframe.toJson.Printable := by
  rw [toJson_eq_slots]
  exact Json.printable_present (by simp [slots])

@[simp] theorem PropertyAddress.printable_toJson (address : PropertyAddress) :
    address.toJson.Printable := by
  rw [toJson_eq_slots]
  exact Json.printable_present (by simp [slots])

@[simp] theorem Track.printable_toJson (track : Track) :
    track.toJson.Printable := by
  rw [toJson_eq_slots]
  exact Json.printable_present
    (by simp [slots, ValueKind.toJson, Interpolation.toJson,
      Json.printable_ofList])

@[simp] theorem Category.printable_toJson (category : Category) :
    category.toJson.Printable :=
  .str _

@[simp] theorem Constraints.printable_toJson (constraints : Constraints) :
    constraints.toJson.Printable := by
  rw [toJson_eq_slots]
  refine Json.printable_present ?_
  simp only [slots, List.forall_mem_cons]
  exact ⟨by simp, by simp, by simp,
    fun _ => Json.printable_of_mem_filled Json.printable_str,
    by simp [Json.printable_ofList], by simp⟩

@[simp] theorem Property.printable_toJson (property : Property) :
    property.toJson.Printable := by
  rw [toJson_eq_slots]
  exact Json.printable_present (by simp [slots, ValueKind.toJson])

@[simp] theorem Knot.printable_toJson (knot : Knot Float) :
    knot.toJson.Printable := by
  rw [toJson_eq_slots]
  exact Json.printable_present (by simp [slots, KnotMode.toJson])

@[simp] theorem Path.printable_toJson (path : Path Float) :
    path.toJson.Printable := by
  rw [toJson_eq_slots]
  exact Json.printable_present (by simp [slots, Json.printable_ofList])

@[simp] theorem OwnerKind.printable_toJson (kind : OwnerKind) :
    kind.toJson.Printable := by
  rw [toJson_eq_slots]
  exact Json.printable_present (by simp [slots])

@[simp] theorem Owner.printable_toJson (owner : Owner) :
    owner.toJson.Printable := by
  rw [toJson_eq_slots]
  refine Json.printable_present ?_
  simp only [slots, List.forall_mem_cons]
  exact ⟨by simp, by simp, by simp [Json.printable_ofList],
    by simp [Json.printable_ofOption],
    fun _ => Json.printable_of_mem_filled OwnerId.printable_toJson,
    fun _ => Json.printable_of_mem_filled OwnerId.printable_toJson,
    by simp, by simp⟩

/-! ## Digested bytes -/

namespace ContentHash

theorem framed_inj
    {first second : ByteArray}
    (same : framed first = framed second) :
    first = second := by
  have data := congrArg ByteArray.data same
  simp only [framed, ByteArray.data_append, List.data_toByteArray] at data
  exact ByteArray.ext (Array.append_inj data (by simp [lengthBytes])).2

end ContentHash

namespace Registry

theorem get?_eq_some_iff
    {registry : Registry}
    {id : OwnerId}
    {owner : Owner} :
    registry.get? id = some owner ↔
      owner ∈ registry.toList ∧ owner.id = id := by
  constructor
  · intro found
    have own := id_of_get? found
    exact ⟨mem_toList.2 (by rwa [own]), own⟩
  · rintro ⟨member, rfl⟩
    exact mem_toList.1 member

theorem eq_of_toList
    {first second : Registry}
    (same : first.toList = second.toList) :
    first = second := by
  ext id owner
  rw [get?_eq_some_iff, get?_eq_some_iff, same]

end Registry

namespace Scene

/-- The doubles of all owners. -/
def doubles (scene : Scene) : List Float :=
  scene.owners.toList.flatMap Owner.doubles

/-- The bytes that are digested for the fingerprint of a scene. -/
def hashed (scene : Scene) : ByteArray :=
  ContentHash.framed scene.canonical.text.toUTF8

theorem fingerprint_eq_digest (scene : Scene) :
    scene.fingerprint = ⟨Sha256.digest scene.hashed⟩ :=
  rfl

/-- The slots of the canonical form of a scene. -/
def slots (scene : Scene) : List (String × Option Json) :=
  [("root", some scene.root.toJson),
    ("styles", some (.ofList OwnerId.toJson scene.styles)),
    ("tools", some (.ofList OwnerId.toJson scene.tools)),
    ("selection", some (.ofList OwnerId.toJson scene.selection.toList)),
    ("owners", some (.ofList Owner.toJson scene.owners.toList))]

theorem canonical_eq_slots (scene : Scene) :
    scene.canonical = .obj (Json.present scene.slots) :=
  rfl

theorem printable_canonical (scene : Scene) : scene.canonical.Printable := by
  rw [canonical_eq_slots]
  exact Json.printable_present (by simp [slots, Json.printable_ofList])

theorem canonical_inj
    {first second : Scene}
    (apart : ToldApart first.doubles second.doubles)
    (same : first.canonical = second.canonical) :
    first = second := by
  have parts : first.slots.map Prod.snd = second.slots.map Prod.snd :=
    Json.present_inj ["root", "styles", "tools", "selection", "owners"] rfl rfl
      (by decide) same
  simp only [slots, List.map_cons, List.cons.injEq, Option.some.injEq] at parts
  obtain ⟨roots, styles, tools, selections, owners, _⟩ := parts
  have root := OwnerId.toJson_inj roots
  have styles := Json.ofList_inj (fun _ _ _ _ => OwnerId.toJson_inj) styles
  have tools := Json.ofList_inj (fun _ _ _ _ => OwnerId.toJson_inj) tools
  have selection : first.selection = second.selection :=
    Std.ExtTreeSet.ext_toList
      (.of_eq (Json.ofList_inj (fun _ _ _ _ => OwnerId.toJson_inj) selections))
  have owners := Registry.eq_of_toList (Json.ofList_inj
    (fun a member b other =>
      Owner.toJson_inj (apart.flatMap a member b other)) owners)
  cases first
  cases second
  rw [Scene.mk.injEq]
  exact ⟨owners, root, styles, tools, selection⟩

theorem canonical_eq_of_hashed
    {first second : Scene}
    (same : first.hashed = second.hashed) :
    first.canonical = second.canonical := by
  have texts : first.canonical.text = second.canonical.text :=
    String.toByteArray_inj.1 (ContentHash.framed_inj same)
  exact Json.text_inj first.printable_canonical second.printable_canonical texts

theorem hashed_eq_iff
    {first second : Scene}
    (proper : ∀ x ∈ first.doubles, ∀ y ∈ second.doubles,
      x.isFinite = false → y.isFinite = false → x = y) :
    first.hashed = second.hashed ↔ first = second := by
  constructor
  · intro same
    refine canonical_inj ?_ (canonical_eq_of_hashed same)
    exact fun x member y other => Json.ofFloat_inj (proper x member y other)
  · rintro rfl
    rfl

/-- Equal bytes are digested for equal scenes only, so scenes of one fingerprint
are equal unless the digest collides.  What is asked of the scenes is that two
different doubles that are not finite never stand one in each. -/
theorem fingerprint_identifies
    {first second : Scene}
    (proper : ∀ x ∈ first.doubles, ∀ y ∈ second.doubles,
      x.isFinite = false → y.isFinite = false → x = y) :
    (first.hashed = second.hashed ↔ first = second) ∧
      (first.fingerprint = second.fingerprint ↔
        first = second ∨
          first.hashed ≠ second.hashed ∧
            Sha256.digest first.hashed = Sha256.digest second.hashed) := by
  refine ⟨hashed_eq_iff proper, ?_⟩
  rw [fingerprint_eq_digest, fingerprint_eq_digest,
    ContentHash.mk.injEq, ← hashed_eq_iff proper]
  constructor
  · intro digests
    by_cases same : first.hashed = second.hashed
    · exact .inl same
    · exact .inr ⟨same, digests⟩
  · rintro (same | ⟨_, digests⟩)
    · rw [same]
    · exact digests

/-- The root, which has the path as its child. -/
def pennedRoot : Owner where
  id := ⟨1⟩
  kind := .object .empty
  properties := []
  children := [⟨2⟩]

/-- A path below the root, with one knot at a given height. -/
def pennedPath (height : Float) : Owner where
  id := ⟨2⟩
  kind := .object .path
  properties := []
  parent := some ⟨1⟩
  geometry := some ⟨[.linear ⟨-0.0, height⟩], false⟩

/-- A root with the path as its only child. -/
def penned (height : Float) : Scene :=
  { (empty.insert pennedRoot).insert (pennedPath height) with root := ⟨1⟩ }

theorem fingerprint_identifies_penned :
    let high := penned 1e300
    let undefined := penned (0.0 / 0.0)
    (∀ x ∈ high.doubles, ∀ y ∈ undefined.doubles,
      x.isFinite = false → y.isFinite = false → x = y) ∧
    (high.hashed = undefined.hashed ↔ high = undefined) ∧
      (high.fingerprint = undefined.fingerprint ↔
        high = undefined ∨
          high.hashed ≠ undefined.hashed ∧
            Sha256.digest high.hashed = Sha256.digest undefined.hashed) := by
  have proper : ∀ x ∈ (penned 1e300).doubles,
      ∀ y ∈ (penned (0.0 / 0.0)).doubles,
      x.isFinite = false → y.isFinite = false → x = y := by
    decide +kernel
  exact ⟨proper, fingerprint_identifies proper⟩

theorem doubles_penned (height : Float) :
    (penned height).doubles = [-0.0, height, 0.0, 0.0, 0.0, 0.0] :=
  rfl

theorem canonical_penned
    {first second : Float}
    (same : Json.ofFloat first = Json.ofFloat second) :
    (penned first).canonical = (penned second).canonical := by
  have paths : (pennedPath first).toJson = (pennedPath second).toJson := by
    simp only [Owner.toJson, pennedPath, Json.optionalField, Option.map_some,
      Path.toJson, Json.ofList, List.map_cons, Knot.toJson, Knot.linear,
      Point.toJson, same]
  have slots (height : Float) :
      (penned height).canonical =
        .obj [("root", .int 1), ("styles", .arr []), ("tools", .arr []),
          ("selection", .arr []),
          ("owners", .arr [pennedRoot.toJson, (pennedPath height).toJson])] :=
    rfl
  rw [slots, slots, paths]

/-- A knot at an infinite height and a knot at no height give valid scenes of
one fingerprint. -/
theorem fingerprint_shared_penned :
    let infinite := penned (1.0 / 0.0)
    let undefined := penned (0.0 / 0.0)
    infinite.violations = [] ∧ undefined.violations = [] ∧
      infinite.hashed = undefined.hashed ∧
      infinite.fingerprint = undefined.fingerprint ∧ infinite ≠ undefined := by
  intro infinite undefined
  have stored : Json.ofFloat (1.0 / 0.0) = Json.ofFloat (0.0 / 0.0) := by
    rw [Json.ofFloat, Json.ofFloat, if_neg (by decide +kernel),
      if_neg (by decide +kernel)]
  have same : infinite.hashed = undefined.hashed := by
    rw [hashed, hashed, canonical_penned stored]
  refine ⟨by decide +kernel, by decide +kernel, same, ?_, fun equal => ?_⟩
  · rw [fingerprint_eq_digest, fingerprint_eq_digest, same]
  · have heights := congrArg doubles equal
    simp only [infinite, undefined, doubles_penned, List.cons.injEq, true_and,
      and_true] at heights
    exact absurd heights (by decide +kernel)

end Scene
end MotionScene
