import MotionScene.Proofs.Document.Slots
import MotionScene.Proofs.Identifier

/-!
# Stored documents read back

Decoding the tree a snapshot is stored as gives the snapshot back: every record,
whichever of its fields were left out, every kind of value with its content and
every list.  All it takes is that the doubles are finite and that the numbers
fit sixty-four bits.
-/

namespace MotionScene

/-- The greatest number that fits sixty-four bits. -/
def greatestNumber : Nat := 18446744073709551615

/-! ## Names of choices -/

namespace Interpolation

theorem ofName?_name (interpolation : Interpolation) :
    ofName? interpolation.name = some interpolation := by
  cases interpolation <;> rfl

end Interpolation

namespace KnotMode

theorem ofName?_name (mode : KnotMode) : ofName? mode.name = some mode := by
  cases mode <;> rfl

end KnotMode

namespace PlayMode

theorem ofName?_name (mode : PlayMode) : ofName? mode.name = some mode := by
  cases mode <;> rfl

end PlayMode

namespace Category

theorem ofName?_name (category : Category) :
    ofName? category.name = some category := by
  cases category <;> rfl

end Category

namespace OwnerKind

/-- A kind reads back from its category and the name of its type, which only
styles lack. -/
theorem ofContent?_typeName? (kind : OwnerKind) :
    ofContent? kind.category (kind.typeName?.map .str) = some kind := by
  cases kind with
  | object type => cases type <;> rfl
  | tag type => cases type <;> rfl
  | style => rfl
  | tool type => cases type; rfl

theorem ofJson?_toJson (kind : OwnerKind) :
    ofJson? kind.toJson = some kind := by
  have tagged :=
    Json.tagged?_present (by decide : "category" ≠ "type") kind.category.name
      (kind.typeName?.map .str)
  simp only [ofJson?, toJson_eq_slots, slots, tagged, Option.bind_eq_bind,
    Option.bind_some, Category.ofName?_name]
  exact ofContent?_typeName? kind

end OwnerKind

/-! ## Values -/

namespace OwnerId

variable {id : OwnerId}

theorem ofJson?_toJson (fits : id.number ≤ greatestNumber) :
    ofJson? id.toJson = some id := by
  rw [ofJson?, toJson, Json.nat64?_ofNat fits]
  rfl

theorem toJson_ne_null (id : OwnerId) : id.toJson ≠ .null := by
  simp [toJson, Json.ofNat]

theorem nullable?_ofOption
    {target : Option OwnerId}
    (fits : ∀ id ∈ target, id.number ≤ greatestNumber) :
    Json.nullable? ofJson? (.ofOption toJson target) = some target :=
  Json.nullable?_ofOption toJson_ne_null fun id present =>
    ofJson?_toJson (fits id present)

end OwnerId

namespace Point

theorem ofJson?_toJson
    {point : Point Float}
    (finite : ∀ x ∈ point.doubles, x.isFinite = true) :
    ofJson? point.toJson = some point := by
  simp only [doubles, List.forall_mem_cons] at finite
  have read : point.toJson.record? ["x", "y"] =
      some [some (.ofFloat point.x), some (.ofFloat point.y)] :=
    Json.record?_present point.slots rfl (by decide)
  unfold ofJson?
  rw [read]
  simp [Json.required, Json.float?_ofFloat, finite]

end Point

namespace Color

theorem ofJson?_toJson
    {color : Color}
    (finite : ∀ x ∈ color.components, x.isFinite = true) :
    ofJson? color.toJson = some color := by
  simp only [components, List.forall_mem_cons] at finite
  have read : color.toJson.record? ["r", "g", "b", "a"] =
      some (color.slots.map Prod.snd) :=
    Json.record?_present color.slots rfl (by decide)
  unfold ofJson?
  rw [read]
  simp [slots, Json.required, Json.float?_ofFloat, finite]

end Color

namespace Value

theorem number_le_of_mem
    {target : Option OwnerId}
    (fit : ∀ n ∈ (reference target).numbers, n ≤ greatestNumber) :
    ∀ id ∈ target, id.number ≤ greatestNumber := by
  intro id present
  refine fit id.number ?_
  rw [Option.mem_def] at present
  simp [numbers, present]

/-- A value reads back from its kind and its content. -/
theorem ofContent?_content
    {value : Value}
    (finite : ∀ x ∈ value.doubles, x.isFinite = true)
    (fit : ∀ n ∈ value.numbers, n ≤ greatestNumber) :
    ofContent? value.kind value.content = some value := by
  cases value with
  | bool b => rfl
  | integer n =>
      simp [ofContent?, kind, content, Json.required, Json.int64?_int]
  | float x =>
      have finite : x.isFinite = true := finite x (List.mem_singleton_self x)
      simp [ofContent?, kind, content, Json.required,
        Json.float?_ofFloat finite]
  | string s => rfl
  | color c =>
      simp [ofContent?, kind, content, Json.required,
        Color.ofJson?_toJson finite]
  | options index =>
      have fits : index ≤ greatestNumber :=
        fit index (List.mem_singleton_self index)
      simp [ofContent?, kind, content, Json.required, Json.nat64?_ofNat fits]
  | reference target =>
      have read := OwnerId.nullable?_ofOption (number_le_of_mem fit)
      simp [ofContent?, kind, content, Json.withDefault, read]
  | trigger => rfl
  | integerVector x y =>
      simp [ofContent?, kind, content, Json.required, Json.pair?,
        Json.int64?_int]
  | floatVector p =>
      simp [ofContent?, kind, content, Json.required,
        Point.ofJson?_toJson finite]

theorem ofJson?_toJson
    {value : Value}
    (finite : ∀ x ∈ value.doubles, x.isFinite = true)
    (fit : ∀ n ∈ value.numbers, n ≤ greatestNumber) :
    ofJson? value.toJson = some value := by
  have tagged := Json.tagged?_present
    (by decide : "kind" ≠ "value") value.kind.name value.content
  simp only [ofJson?, toJson_eq_slots, slots, tagged, Option.bind_eq_bind,
    Option.bind_some, ValueKind.ofName?_name]
  exact ofContent?_content finite fit

end Value

/-! ## Tracks -/

namespace Tangents

theorem ofJson?_toJson
    {tangents : Tangents}
    (finite : ∀ x ∈ tangents.doubles, x.isFinite = true) :
    ofJson? tangents.toJson = some tangents := by
  rw [doubles, List.forall_mem_append] at finite
  have read : tangents.toJson.record? ["incoming", "outgoing"] =
      some (tangents.slots.map Prod.snd) :=
    Json.record?_present tangents.slots rfl (by decide)
  have incoming :=
    Json.list?_ofList fun x member => Json.float?_ofFloat (finite.1 x member)
  have outgoing :=
    Json.list?_ofList fun x member => Json.float?_ofFloat (finite.2 x member)
  unfold ofJson?
  rw [read]
  simp [slots, Json.required, incoming, outgoing]

theorem toJson_ne_null (tangents : Tangents) : tangents.toJson ≠ .null := by
  simp [toJson]

end Tangents

namespace Keyframe

theorem ofJson?_toJson
    {keyframe : Keyframe}
    (finite : ∀ x ∈ keyframe.doubles, x.isFinite = true)
    (fit : ∀ n ∈ keyframe.numbers, n ≤ greatestNumber) :
    ofJson? keyframe.toJson = some keyframe := by
  simp only [doubles, List.forall_mem_append, List.forall_mem_flatMap,
    Option.mem_toList] at finite
  have read : keyframe.toJson.record? ["frame", "value", "tangents"] =
      some (keyframe.slots.map Prod.snd) := by
    rw [toJson_eq_slots]
    exact Json.record?_present keyframe.slots rfl (by decide)
  have value := Value.ofJson?_toJson finite.1 fit
  have tangents :=
    Json.withDefault_map (fun tangents _ => Tangents.toJson_ne_null tangents)
      fun tangents present =>
        Tangents.ofJson?_toJson (finite.2 tangents present)
  unfold ofJson?
  rw [read]
  simp [slots, Json.required, Json.int32?_int, value, tangents]

end Keyframe

namespace PropertyAddress

theorem ofJson?_toJson
    {address : PropertyAddress}
    (fits : address.owner.number ≤ greatestNumber) :
    ofJson? address.toJson = some address := by
  have read : address.toJson.record? ["owner", "property"] =
      some (address.slots.map Prod.snd) :=
    Json.record?_present address.slots rfl (by decide)
  unfold ofJson?
  rw [read]
  simp [slots, Json.required, Json.string?, OwnerId.ofJson?_toJson fits]

end PropertyAddress

namespace Track

theorem ofJson?_toJson
    {track : Track}
    (finite : ∀ x ∈ track.doubles, x.isFinite = true)
    (fit : ∀ n ∈ track.numbers, n ≤ greatestNumber) :
    ofJson? track.toJson = some track := by
  simp only [doubles, List.forall_mem_flatMap] at finite
  simp only [numbers, List.forall_mem_cons, List.forall_mem_flatMap] at fit
  have read :
      track.toJson.record? ["target", "kind", "interpolation", "keyframes"] =
      some (track.slots.map Prod.snd) :=
    Json.record?_present track.slots rfl (by decide)
  have target := PropertyAddress.ofJson?_toJson fit.1
  have keyframes := Json.list?_ofList fun keyframe member =>
    Keyframe.ofJson?_toJson (finite keyframe member) (fit.2 keyframe member)
  unfold ofJson?
  rw [read]
  simp [slots, Json.required, target, keyframes, ValueKind.toJson,
    ValueKind.ofJson?, Interpolation.toJson, Interpolation.ofJson?,
    Json.choice?_str, Interpolation.ofName?_name]

theorem toJson_ne_null (track : Track) : track.toJson ≠ .null := by
  simp [toJson]

end Track

/-! ## Owners -/

namespace Constraints

theorem ofJson?_toJson
    {constraints : Constraints}
    (finite : ∀ x ∈ constraints.doubles, x.isFinite = true) :
    ofJson? constraints.toJson = some constraints := by
  simp only [doubles, List.forall_mem_append, Option.mem_toList] at finite
  have read : constraints.toJson.record?
        ["min", "max", "step", "options", "reference_filter"] =
      some (constraints.slots.map Prod.snd) := by
    rw [toJson_eq_slots]
    exact Json.record?_present constraints.slots rfl (by decide)
  have bound {value : Option Float}
      (finite : ∀ x, value = some x → x.isFinite = true) :
      Json.withDefault none (Json.nullable? Json.float?) (value.map .ofFloat) =
        some value :=
    Json.withDefault_map
      (fun x present => Json.ofFloat_ne_null (finite x present))
      fun x present => Json.float?_ofFloat (finite x present)
  have options : Json.withDefault [] (Json.list? Json.string?)
        (Json.filled .str constraints.options) =
      some constraints.options :=
    Json.withDefault_filled fun _ _ => rfl
  have filter :
      Json.withDefault none (Json.nullable? (Json.list? Category.ofJson?))
      (constraints.referenceFilter.map (.ofList Category.toJson)) =
        some constraints.referenceFilter :=
    Json.withDefault_map (by simp [Json.ofList]) fun _ _ =>
      Json.list?_ofList fun category _ => Category.ofName?_name category
  unfold ofJson?
  rw [read]
  simp [slots, bound finite.1.1, bound finite.1.2, bound finite.2,
    options, filter]

end Constraints

namespace Property

theorem ofJson?_toJson
    {property : Property}
    (finite : ∀ x ∈ property.doubles, x.isFinite = true)
    (fit : ∀ n ∈ property.numbers, n ≤ greatestNumber) :
    ofJson? property.toJson = some property := by
  simp only [doubles, List.forall_mem_append, List.forall_mem_flatMap,
    Option.mem_toList] at finite
  simp only [numbers, List.forall_mem_append, List.forall_mem_flatMap,
    Option.mem_toList] at fit
  have read : property.toJson.record?
        ["name", "kind", "value", "constraints", "track"] =
      some (property.slots.map Prod.snd) := by
    rw [toJson_eq_slots]
    exact Json.record?_present property.slots rfl (by decide)
  have value := Value.ofJson?_toJson finite.1.1 fit.1
  have constraints : Json.withDefault {} Constraints.ofJson?
        (some property.constraints.toJson) =
      some property.constraints :=
    Constraints.ofJson?_toJson finite.1.2
  have track := Json.withDefault_map
    (fun track _ => Track.toJson_ne_null track) fun track present =>
      Track.ofJson?_toJson (finite.2 track present) (fit.2 track present)
  unfold ofJson?
  rw [read]
  simp [slots, Json.required, Json.string?, value, constraints, track,
    ValueKind.toJson, ValueKind.ofJson?, Json.choice?_str]

end Property

namespace Knot

theorem ofJson?_toJson
    {knot : Knot Float}
    (finite : ∀ x ∈ knot.doubles, x.isFinite = true) :
    ofJson? knot.toJson = some knot := by
  simp only [doubles, List.forall_mem_append] at finite
  have read : knot.toJson.record?
        ["position", "left_tangent", "right_tangent", "mode"] =
      some (knot.slots.map Prod.snd) :=
    Json.record?_present knot.slots rfl (by decide)
  unfold ofJson?
  rw [read]
  simp [slots, Json.required, Point.ofJson?_toJson finite.1.1,
    Point.ofJson?_toJson finite.1.2, Point.ofJson?_toJson finite.2,
    KnotMode.toJson, KnotMode.ofJson?, Json.choice?_str, KnotMode.ofName?_name]

end Knot

namespace Path

theorem ofJson?_toJson
    {path : Path Float}
    (finite : ∀ x ∈ path.doubles, x.isFinite = true) :
    ofJson? path.toJson = some path := by
  simp only [doubles, List.forall_mem_flatMap] at finite
  have read : path.toJson.record? ["knots", "closed"] =
      some (path.slots.map Prod.snd) :=
    Json.record?_present path.slots rfl (by decide)
  have knots := Json.list?_ofList fun knot member =>
    Knot.ofJson?_toJson (finite knot member)
  unfold ofJson?
  rw [read]
  simp [slots, Json.required, Json.bool?, knots]

theorem toJson_ne_null (path : Path Float) : path.toJson ≠ .null := by
  simp [toJson]

end Path

namespace Owner

theorem ofJson?_toJson
    {owner : Owner}
    (finite : ∀ x ∈ owner.doubles, x.isFinite = true)
    (fit : ∀ n ∈ owner.numbers, n ≤ greatestNumber) :
    ofJson? owner.toJson = some owner := by
  simp only [doubles, List.forall_mem_append, List.forall_mem_flatMap,
    Option.mem_toList] at finite
  simp only [numbers, List.forall_mem_cons, List.forall_mem_append,
    List.forall_mem_flatMap, List.forall_mem_map, Option.mem_toList] at fit
  obtain ⟨fitsId, fitProperties, ⟨fitsParent, fitChildren⟩, fitTags⟩ := fit
  have read : owner.toJson.record?
      ["id", "kind", "properties", "parent", "children", "tags", "geometry"] =
        some (owner.slots.map Prod.snd) := by
    rw [toJson_eq_slots]
    exact Json.record?_present owner.slots rfl (by decide)
  have properties := Json.list?_ofList fun property member =>
    Property.ofJson?_toJson (finite.1 property member)
      (fitProperties property member)
  have parent : Json.withDefault none (Json.nullable? OwnerId.ofJson?)
      (some (.ofOption OwnerId.toJson owner.parent)) = some owner.parent :=
    OwnerId.nullable?_ofOption fitsParent
  have children := Json.withDefault_filled fun id member =>
    OwnerId.ofJson?_toJson (fitChildren id member)
  have tags := Json.withDefault_filled fun id member =>
    OwnerId.ofJson?_toJson (fitTags id member)
  have geometry := Json.withDefault_map
    (fun path _ => Path.toJson_ne_null path) fun path present =>
      Path.ofJson?_toJson (finite.2 path present)
  unfold ofJson?
  rw [read]
  simp [slots, Json.required, OwnerId.ofJson?_toJson fitsId,
    OwnerKind.ofJson?_toJson, properties, parent, children, tags, geometry]

end Owner

/-! ## Documents -/

namespace Clock

theorem ofJson?_toJson
    {clock : Clock}
    (finite : clock.fps.isFinite = true) :
    ofJson? clock.toJson = some clock := by
  have read :
      clock.toJson.record? ["start", "end", "current", "fps", "play_mode"] =
      some (clock.slots.map Prod.snd) :=
    Json.record?_present clock.slots rfl (by decide)
  unfold ofJson?
  rw [read]
  simp [slots, Json.required, Json.int32?_int, Json.float?_ofFloat finite,
    PlayMode.toJson, PlayMode.ofJson?, Json.choice?_str, PlayMode.ofName?_name]

end Clock

namespace Snapshot

/-- A snapshot whose doubles are finite, and whose numbers fit sixty-four bits
as those of every document do, is given back by decoding the tree it is stored
as. -/
theorem read_back
    {snapshot : Snapshot}
    (finite : ∀ x ∈ snapshot.doubles, x.isFinite = true)
    (fit : ∀ n ∈ snapshot.numbers, n ≤ greatestNumber) :
    ofJson? snapshot.toJson = some snapshot := by
  simp only [doubles, List.forall_mem_cons, List.forall_mem_flatMap] at finite
  simp only [numbers, List.forall_mem_append, List.forall_mem_flatMap,
    List.forall_mem_map, List.forall_mem_cons] at fit
  obtain ⟨⟨fitsRoot, ⟨fitStyles, fitTools⟩, fitSelection⟩, fitOwners⟩ := fit
  have read : snapshot.toJson.record?
      ["id", "root", "styles", "tools", "selection", "animator", "owners"] =
        some (snapshot.slots.map Prod.snd) :=
    Json.record?_present snapshot.slots rfl (by decide)
  have ids {list : List OwnerId}
      (fit : ∀ id ∈ list, id.number ≤ greatestNumber) :
      Json.withDefault [] (Json.list? OwnerId.ofJson?)
          (some (.ofList OwnerId.toJson list)) =
        some list :=
    Json.list?_ofList fun id member => OwnerId.ofJson?_toJson (fit id member)
  have owners := Json.list?_ofList fun owner member =>
    Owner.ofJson?_toJson (finite.2 owner member) (fitOwners owner member)
  unfold ofJson?
  rw [read]
  simp [slots, fields, Json.required, DocumentId.toJson, DocumentId.ofJson?,
    Json.string?, DocumentId.ofText?_text, OwnerId.ofJson?_toJson fitsRoot,
    ids fitStyles, ids fitTools, ids fitSelection,
    Clock.ofJson?_toJson finite.1, owners]

/-- A document with a path that is animated with tangents and refers to a
style. -/
def animated : Snapshot where
  id := ⟨0x1234567890abcdef1234567890abcdef⟩
  root := ⟨1⟩
  styles := [⟨4⟩]
  tools := []
  selection := [⟨3⟩]
  clock := ⟨1, 100, 1, 24.0, .repeat⟩
  owners :=
    [{ id := ⟨1⟩, kind := .object .empty, properties := [], children := [⟨3⟩] },
      { id := ⟨3⟩
        kind := .object .path
        properties :=
          [{ name := "width"
             kind := .float
             value := .float 0.5
             constraints :=
            { min := some 0.0, options := ["thin"], referenceFilter := some [] }
             track := some ⟨⟨⟨3⟩, "width"⟩, .float, .smoothCubic,
               [⟨-1, .float 0.1, some ⟨[1.5], []⟩⟩,
                 ⟨10, .float (-0.0), none⟩]⟩ },
            .ofValue "refresh" .trigger,
            .ofValue "size" (.integerVector 3 (-4))]
        parent := some ⟨1⟩
        tags := [⟨5⟩]
        geometry :=
          some ⟨[.bezier ⟨0.0, 1.0⟩ ⟨-2.5, 0.0⟩ ⟨1e300, 5e-324⟩], true⟩ },
      { id := ⟨5⟩
        kind := .tag .style
        properties :=
        [.ofValue "style" (.reference (some ⟨4⟩)),
          .ofValue "other" (.reference none)]
        parent := some ⟨3⟩ },
      { id := ⟨4⟩
        kind := .style
        properties :=
        [.ofValue "color" (.color .pureRed),
          .choice "join" ["round", "bevel"] 1] }]

theorem read_back_animated :
    (∀ x ∈ animated.doubles, x.isFinite = true) ∧
      (∀ n ∈ animated.numbers, n ≤ greatestNumber) ∧
      ofJson? animated.toJson = some animated := by
  have finite : ∀ x ∈ animated.doubles, x.isFinite = true := by decide +kernel
  have fit : ∀ n ∈ animated.numbers, n ≤ greatestNumber := by decide +kernel
  exact ⟨finite, fit, read_back finite fit⟩

end Snapshot

end MotionScene
