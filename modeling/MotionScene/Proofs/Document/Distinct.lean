import MotionScene.Proofs.Document.Storing

/-!
# Different records are stored differently

Every record of a document is determined by the tree it is stored as, up to
doubles that are not finite, which are all stored as null.  What two records may
not hold for this is said of their lists of doubles:  those that are stored
alike are the same.
-/

namespace MotionScene

/-- Doubles of two lists that are stored alike are the same. -/
def ToldApart (first second : List Float) : Prop :=
  ∀ x ∈ first, ∀ y ∈ second, Json.ofFloat x = Json.ofFloat y → x = y

namespace ToldApart

variable {first second : List Float}

theorem mono
    (apart : ToldApart first second)
    {fewer others : List Float}
    (within : ∀ x ∈ fewer, x ∈ first)
    (othersWithin : ∀ x ∈ others, x ∈ second) :
    ToldApart fewer others :=
  fun x member y other => apart x (within x member) y (othersWithin y other)

theorem append
    {later others : List Float}
    (apart : ToldApart (first ++ later) (second ++ others)) :
    ToldApart first second ∧ ToldApart later others :=
  ⟨apart.mono (fun _ => List.mem_append_left _) fun _ => List.mem_append_left _,
    apart.mono (fun _ => List.mem_append_right _)
      fun _ => List.mem_append_right _⟩

theorem cons
    {x y : Float}
    (apart : ToldApart (x :: first) (y :: second)) :
    (Json.ofFloat x = Json.ofFloat y → x = y) ∧ ToldApart first second :=
  ⟨apart x List.mem_cons_self y List.mem_cons_self,
    apart.mono (fun _ => List.mem_cons_of_mem x)
      fun _ => List.mem_cons_of_mem y⟩

theorem flatMap
    {α : Type}
    {doubles : α → List Float}
    {items others : List α}
    (apart : ToldApart (items.flatMap doubles) (others.flatMap doubles)) :
    ∀ item ∈ items, ∀ other ∈ others,
      ToldApart (doubles item) (doubles other) :=
  fun item member other otherMember =>
    apart.mono (fun _ inner => List.mem_flatMap.2 ⟨item, member, inner⟩)
      fun _ inner => List.mem_flatMap.2 ⟨other, otherMember, inner⟩

theorem option
    {α : Type}
    {doubles : α → List Float}
    {item other : Option α}
    (apart : ToldApart (item.toList.flatMap doubles)
      (other.toList.flatMap doubles)) :
    ∀ a ∈ item, ∀ b ∈ other, ToldApart (doubles a) (doubles b) :=
  fun a member b otherMember =>
    apart.flatMap a (Option.mem_toList.2 member) b
      (Option.mem_toList.2 otherMember)

end ToldApart

namespace Json

variable {α : Type} {encode : α → Json}

/-! ## Parts of a record -/

theorem ofFloat_inj
    {x y : Float}
    (proper : x.isFinite = false → y.isFinite = false → x = y)
    (same : ofFloat x = ofFloat y) :
    x = y := by
  unfold ofFloat at same
  split at same <;> split at same
  · exact Json.float.inj same
  · cases same
  · cases same
  · next infinite otherInfinite =>
      exact proper (by simpa using infinite) (by simpa using otherInfinite)

theorem ofList_inj
    {first second : List α}
    (each : ∀ a ∈ first, ∀ b ∈ second, encode a = encode b → a = b)
    (same : ofList encode first = ofList encode second) :
    first = second := by
  have lists : first.map encode = second.map encode := Json.arr.inj same
  clear same
  induction first generalizing second with
  | nil =>
      cases second with
      | nil => rfl
      | cons b second => cases lists
  | cons a first inductionHypothesis =>
      cases second with
      | nil => cases lists
      | cons b second =>
          rw [List.map_cons, List.map_cons, List.cons.injEq] at lists
          rw [each a List.mem_cons_self b List.mem_cons_self lists.1,
            inductionHypothesis (fun c member d other =>
              each c (List.mem_cons_of_mem a member) d
              (List.mem_cons_of_mem b other)) lists.2]

theorem filled_inj
    {first second : List α}
    (each : ∀ a ∈ first, ∀ b ∈ second, encode a = encode b → a = b)
    (same : filled encode first = filled encode second) :
    first = second := by
  cases first with
  | nil =>
      cases second with
      | nil => rfl
      | cons b second => cases same
  | cons a first =>
      cases second with
      | nil => cases same
      | cons b second => exact ofList_inj each (Option.some.inj same)

theorem map_inj
    {first second : Option α}
    (each : ∀ a ∈ first, ∀ b ∈ second, encode a = encode b → a = b)
    (same : first.map encode = second.map encode) :
    first = second := by
  cases first with
  | none =>
      cases second with
      | none => rfl
      | some b => cases same
  | some a =>
      cases second with
      | none => cases same
      | some b => rw [each a rfl b rfl (Option.some.inj same)]

theorem ofOption_inj
    {first second : Option α}
    (written : ∀ a, encode a ≠ .null)
    (each : ∀ a b, encode a = encode b → a = b)
    (same : ofOption encode first = ofOption encode second) :
    first = second := by
  cases first with
  | none =>
      cases second with
      | none => rfl
      | some b => exact absurd same.symm (written b)
  | some a =>
      cases second with
      | none => exact absurd same (written a)
      | some b => rw [each a b same]

theorem str_name_inj
    {name : α → String}
    {ofName? : String → Option α}
    (reads : ∀ a, ofName? (name a) = some a)
    {first second : α}
    (same : Json.str (name first) = Json.str (name second)) :
    first = second := by
  have read := reads first
  rw [Json.str.inj same, reads second] at read
  exact (Option.some.inj read).symm

end Json

namespace OwnerId

theorem toJson_inj
    {first second : OwnerId}
    (same : first.toJson = second.toJson) :
    first = second := by
  have numbers : (first.number : Int) = second.number := Json.int.inj same
  cases first
  cases second
  rw [OwnerId.mk.injEq]
  exact Int.ofNat.inj numbers

end OwnerId

/-! ## Values -/

namespace Point

theorem toJson_inj
    {first second : Point Float}
    (apart : ToldApart first.doubles second.doubles)
    (same : first.toJson = second.toJson) :
    first = second := by
  have parts : first.slots.map Prod.snd = second.slots.map Prod.snd :=
    Json.present_inj ["x", "y"] rfl rfl (by decide) same
  simp only [slots, List.map_cons, List.cons.injEq, Option.some.injEq] at parts
  have x := apart.cons.1 parts.1
  have y := apart.cons.2.cons.1 parts.2.1
  cases first
  cases second
  rw [Point.mk.injEq]
  exact ⟨x, y⟩

end Point

namespace Color

theorem toJson_inj
    {first second : Color}
    (apart : ToldApart first.components second.components)
    (same : first.toJson = second.toJson) :
    first = second := by
  have parts : first.slots.map Prod.snd = second.slots.map Prod.snd :=
    Json.present_inj ["r", "g", "b", "a"] rfl rfl (by decide) same
  simp only [slots, List.map_cons, List.cons.injEq, Option.some.injEq] at parts
  have red := apart.cons.1 parts.1
  have green := apart.cons.2.cons.1 parts.2.1
  have blue := apart.cons.2.cons.2.cons.1 parts.2.2.1
  have alpha := apart.cons.2.cons.2.cons.2.cons.1 parts.2.2.2.1
  cases first
  cases second
  rw [Color.mk.injEq]
  exact ⟨red, green, blue, alpha⟩

end Color

namespace Value

/-- Values of one kind are told apart by what they store. -/
theorem content_inj
    {first second : Value}
    (apart : ToldApart first.doubles second.doubles)
    (kinds : first.kind = second.kind)
    (same : first.content = second.content) :
    first = second := by
  cases first <;> cases second <;> simp only [kind, reduceCtorEq] at kinds <;>
    simp only [content, Option.some.injEq] at same
  · exact congrArg bool (Json.bool.inj same)
  · exact congrArg integer (Int64.toInt_inj.1 (Json.int.inj same))
  · exact congrArg float (apart.cons.1 same)
  · exact congrArg string (Json.str.inj same)
  · exact congrArg color (Color.toJson_inj apart same)
  · exact congrArg options (Int.ofNat.inj (Json.int.inj same))
  · exact congrArg reference
      (Json.ofOption_inj OwnerId.toJson_ne_null
        (fun _ _ => OwnerId.toJson_inj) same)
  · rfl
  · simp only [Json.arr.injEq, List.cons.injEq, Json.int.injEq, and_true]
      at same
    rw [Int64.toInt_inj.1 same.1, Int64.toInt_inj.1 same.2]
  · exact congrArg floatVector (Point.toJson_inj apart same)

theorem toJson_inj
    {first second : Value}
    (apart : ToldApart first.doubles second.doubles)
    (same : first.toJson = second.toJson) :
    first = second := by
  rw [toJson_eq_slots, toJson_eq_slots] at same
  have parts : first.slots.map Prod.snd = second.slots.map Prod.snd :=
    Json.present_inj ["kind", "value"] rfl rfl (by decide) same
  simp only [slots, List.map_cons, List.cons.injEq, Option.some.injEq] at parts
  exact content_inj apart
    (Json.str_name_inj ValueKind.ofName?_name parts.1) parts.2.1

end Value

/-! ## Tracks -/

namespace Tangents

theorem toJson_inj
    {first second : Tangents}
    (apart : ToldApart first.doubles second.doubles)
    (same : first.toJson = second.toJson) :
    first = second := by
  have parts : first.slots.map Prod.snd = second.slots.map Prod.snd :=
    Json.present_inj ["incoming", "outgoing"] rfl rfl (by decide) same
  simp only [slots, List.map_cons, List.cons.injEq, Option.some.injEq] at parts
  have incoming := Json.ofList_inj apart.append.1 parts.1
  have outgoing := Json.ofList_inj apart.append.2 parts.2.1
  cases first
  cases second
  rw [Tangents.mk.injEq]
  exact ⟨incoming, outgoing⟩

end Tangents

namespace Keyframe

theorem toJson_inj
    {first second : Keyframe}
    (apart : ToldApart first.doubles second.doubles)
    (same : first.toJson = second.toJson) :
    first = second := by
  rw [toJson_eq_slots, toJson_eq_slots] at same
  have parts : first.slots.map Prod.snd = second.slots.map Prod.snd :=
    Json.present_inj ["frame", "value", "tangents"] rfl rfl (by decide) same
  simp only [slots, List.map_cons, List.cons.injEq, Option.some.injEq] at parts
  have frame := Int32.toInt_inj.1 (Json.int.inj parts.1)
  have value := Value.toJson_inj apart.append.1 parts.2.1
  have tangents := Json.map_inj
    (fun a member b other =>
      Tangents.toJson_inj (apart.append.2.option a member b other)) parts.2.2.1
  cases first
  cases second
  rw [Keyframe.mk.injEq]
  exact ⟨frame, value, tangents⟩

end Keyframe

namespace PropertyAddress

theorem toJson_inj
    {first second : PropertyAddress}
    (same : first.toJson = second.toJson) :
    first = second := by
  have parts : first.slots.map Prod.snd = second.slots.map Prod.snd :=
    Json.present_inj ["owner", "property"] rfl rfl (by decide) same
  simp only [slots, List.map_cons, List.cons.injEq, Option.some.injEq] at parts
  have owner := OwnerId.toJson_inj parts.1
  have property := Json.str.inj parts.2.1
  cases first
  cases second
  rw [PropertyAddress.mk.injEq]
  exact ⟨owner, property⟩

end PropertyAddress

namespace Track

theorem toJson_inj
    {first second : Track}
    (apart : ToldApart first.doubles second.doubles)
    (same : first.toJson = second.toJson) :
    first = second := by
  have parts : first.slots.map Prod.snd = second.slots.map Prod.snd :=
    Json.present_inj ["target", "kind", "interpolation", "keyframes"] rfl rfl
      (by decide) same
  simp only [slots, List.map_cons, List.cons.injEq, Option.some.injEq] at parts
  have target := PropertyAddress.toJson_inj parts.1
  have kind := Json.str_name_inj ValueKind.ofName?_name parts.2.1
  have interpolation := Json.str_name_inj Interpolation.ofName?_name parts.2.2.1
  have keyframes := Json.ofList_inj
    (fun a member b other =>
      Keyframe.toJson_inj (apart.flatMap a member b other)) parts.2.2.2.1
  cases first
  cases second
  rw [Track.mk.injEq]
  exact ⟨target, kind, interpolation, keyframes⟩

end Track

/-! ## Owners -/

namespace Constraints

theorem toJson_inj
    {first second : Constraints}
    (apart : ToldApart first.doubles second.doubles)
    (same : first.toJson = second.toJson) :
    first = second := by
  rw [toJson_eq_slots, toJson_eq_slots] at same
  have parts : first.slots.map Prod.snd = second.slots.map Prod.snd :=
    Json.present_inj ["min", "max", "step", "options", "reference_filter"] rfl
      rfl (by decide) same
  simp only [slots, List.map_cons, List.cons.injEq] at parts
  have bound {a b : Option Float} (apart : ToldApart a.toList b.toList)
      (same : a.map Json.ofFloat = b.map Json.ofFloat) : a = b :=
    Json.map_inj (fun x member y other =>
      apart x (Option.mem_toList.2 member) y (Option.mem_toList.2 other)) same
  have min := bound apart.append.1.append.1 parts.1
  have max := bound apart.append.1.append.2 parts.2.1
  have step := bound apart.append.2 parts.2.2.1
  have options := Json.filled_inj (fun _ _ _ _ => Json.str.inj) parts.2.2.2.1
  have filter := Json.map_inj (fun _ _ _ _ => Json.ofList_inj fun _ _ _ _ =>
    Json.str_name_inj Category.ofName?_name) parts.2.2.2.2.1
  cases first
  cases second
  rw [Constraints.mk.injEq]
  exact ⟨min, max, step, options, filter⟩

end Constraints

namespace Property

theorem toJson_inj
    {first second : Property}
    (apart : ToldApart first.doubles second.doubles)
    (same : first.toJson = second.toJson) :
    first = second := by
  rw [toJson_eq_slots, toJson_eq_slots] at same
  have parts : first.slots.map Prod.snd = second.slots.map Prod.snd :=
    Json.present_inj ["name", "kind", "value", "constraints", "track"] rfl rfl
      (by decide) same
  simp only [slots, List.map_cons, List.cons.injEq, Option.some.injEq] at parts
  have name := Json.str.inj parts.1
  have kind := Json.str_name_inj ValueKind.ofName?_name parts.2.1
  have value := Value.toJson_inj apart.append.1.append.1 parts.2.2.1
  have constraints :=
    Constraints.toJson_inj apart.append.1.append.2 parts.2.2.2.1
  have track := Json.map_inj
    (fun a member b other =>
      Track.toJson_inj (apart.append.2.option a member b other)) parts.2.2.2.2.1
  cases first
  cases second
  rw [Property.mk.injEq]
  exact ⟨name, kind, value, constraints, track⟩

end Property

namespace Knot

theorem toJson_inj
    {first second : Knot Float}
    (apart : ToldApart first.doubles second.doubles)
    (same : first.toJson = second.toJson) :
    first = second := by
  have parts : first.slots.map Prod.snd = second.slots.map Prod.snd :=
    Json.present_inj ["position", "left_tangent", "right_tangent", "mode"] rfl
      rfl (by decide) same
  simp only [slots, List.map_cons, List.cons.injEq, Option.some.injEq] at parts
  have position := Point.toJson_inj apart.append.1.append.1 parts.1
  have left := Point.toJson_inj apart.append.1.append.2 parts.2.1
  have right := Point.toJson_inj apart.append.2 parts.2.2.1
  have mode := Json.str_name_inj KnotMode.ofName?_name parts.2.2.2.1
  cases first
  cases second
  rw [Knot.mk.injEq]
  exact ⟨position, left, right, mode⟩

end Knot

namespace Path

theorem toJson_inj
    {first second : Path Float}
    (apart : ToldApart first.doubles second.doubles)
    (same : first.toJson = second.toJson) :
    first = second := by
  have parts : first.slots.map Prod.snd = second.slots.map Prod.snd :=
    Json.present_inj ["knots", "closed"] rfl rfl (by decide) same
  simp only [slots, List.map_cons, List.cons.injEq, Option.some.injEq] at parts
  have knots := Json.ofList_inj
    (fun a member b other =>
      Knot.toJson_inj (apart.flatMap a member b other)) parts.1
  have closed := Json.bool.inj parts.2.1
  cases first
  cases second
  rw [Path.mk.injEq]
  exact ⟨knots, closed⟩

end Path

namespace OwnerKind

theorem toJson_inj
    {first second : OwnerKind}
    (same : first.toJson = second.toJson) :
    first = second := by
  have read := ofJson?_toJson first
  rw [same, ofJson?_toJson second] at read
  exact (Option.some.inj read).symm

end OwnerKind

namespace Owner

theorem toJson_inj
    {first second : Owner}
    (apart : ToldApart first.doubles second.doubles)
    (same : first.toJson = second.toJson) :
    first = second := by
  rw [toJson_eq_slots, toJson_eq_slots] at same
  have parts : first.slots.map Prod.snd = second.slots.map Prod.snd :=
    Json.present_inj
      ["id", "kind", "properties", "parent", "children", "tags",
        "geometry"] rfl rfl
      (by decide) same
  simp only [slots, List.map_cons, List.cons.injEq, Option.some.injEq] at parts
  obtain ⟨ids, kinds, properties, parents, children, tags, geometries, _⟩ :=
    parts
  have id := OwnerId.toJson_inj ids
  have kind := OwnerKind.toJson_inj kinds
  have properties := Json.ofList_inj
    (fun a member b other =>
      Property.toJson_inj (apart.append.1.flatMap a member b other)) properties
  have parent := Json.ofOption_inj OwnerId.toJson_ne_null
    (fun _ _ => OwnerId.toJson_inj) parents
  have children := Json.filled_inj (fun _ _ _ _ => OwnerId.toJson_inj) children
  have tags := Json.filled_inj (fun _ _ _ _ => OwnerId.toJson_inj) tags
  have geometry := Json.map_inj
    (fun a member b other =>
      Path.toJson_inj (apart.append.2.option a member b other)) geometries
  cases first
  cases second
  rw [Owner.mk.injEq]
  exact ⟨id, kind, properties, parent, children, tags, geometry⟩

end Owner

end MotionScene
