import MotionScene.Value.Basic

/-!
# Values in JSON

Two shapes of a value.  The stored shape names the kind and keeps every part
under its name; it is what documents are saved in.  The plain shape is what a
script writes: a bare number, text or array, read with the kind known from
elsewhere.
-/

namespace MotionScene

namespace Point

/-- A point is stored as a record, other than in the plain shape. -/
def toJson (p : Point Float) : Json :=
  .obj [("x", .ofFloat p.x), ("y", .ofFloat p.y)]

/-- The point of a record with both coordinates. -/
def ofJson? (tree : Json) : Option (Point Float) := do
  match ← tree.record? ["x", "y"] with
  | [x, y] =>
    return ⟨← Json.required Json.float? x, ← Json.required Json.float? y⟩
  | _ => none

end Point

namespace Color

/-- A color is stored as a record of channels. -/
def toJson (c : Color) : Json :=
  .obj [("r", .ofFloat c.red), ("g", .ofFloat c.green), ("b", .ofFloat c.blue),
    ("a", .ofFloat c.alpha)]

/-- The color of a record with all four channels. -/
def ofJson? (tree : Json) : Option Color := do
  match ← tree.record? ["r", "g", "b", "a"] with
  | [r, g, b, a] =>
    return ⟨← Json.required Json.float? r, ← Json.required Json.float? g,
      ← Json.required Json.float? b, ← Json.required Json.float? a⟩
  | _ => none

end Color

namespace Value

/-! ## The stored shape -/

/-- What a value stores beside its kind; a trigger stores nothing. -/
def content : Value → Option Json
  | bool b => some (.bool b)
  | integer n => some (.int n.toInt)
  | float x => some (.ofFloat x)
  | string s => some (.str s)
  | color c => some c.toJson
  | options index => some (.ofNat index)
  | reference target => some (.ofOption OwnerId.toJson target)
  | trigger => none
  | integerVector x y => some (.arr [.int x.toInt, .int y.toInt])
  | floatVector p => some p.toJson

/-- The value as stored documents have it: its kind, with the content where
there is one. -/
def toJson (v : Value) : Json :=
  .obj (("kind", v.kind.toJson) :: Json.optionalField "value" id v.content)

/-- The value of a kind and its stored content; only a reference or a trigger
may lack it. -/
def ofContent? (kind : ValueKind) (content : Option Json) : Option Value :=
  match kind with
  | .bool => (Json.required Json.bool? content).map bool
  | .integer => (Json.required Json.int64? content).map integer
  | .float => (Json.required Json.float? content).map float
  | .string => (Json.required Json.string? content).map string
  | .color => (Json.required Color.ofJson? content).map color
  | .options => (Json.required Json.nat64? content).map options
  | .reference =>
    (Json.withDefault none
      (Json.nullable? OwnerId.ofJson?) content).map reference
  | .trigger => (Json.noContent? content).map fun _ => trigger
  | .integerVector =>
    (Json.required (Json.pair? Json.int64? Json.int64?) content).map fun pair =>
      integerVector pair.1 pair.2
  | .floatVector => (Json.required Point.ofJson? content).map floatVector

/-- The value of a record that is told apart by its kind. -/
def ofJson? (tree : Json) : Option Value := do
  let (name, content) ← tree.tagged? "kind" "value"
  ofContent? (← ValueKind.ofName? name) content

/-! ## The plain shape -/

/-- The value as a script sees it. -/
def toPlain : Value → Json
  | bool b => .bool b
  | integer n => .int n.toInt
  | float x => .ofFloat x
  | string s => .str s
  | color c => .ofList .ofFloat c.components
  | options index => .ofNat index
  | reference target => .ofOption OwnerId.toJson target
  | trigger => .null
  | integerVector x y => .arr [.int x.toInt, .int y.toInt]
  | floatVector p => .arr [.ofFloat p.x, .ofFloat p.y]

/-- The color of a text in hexadecimal notation or of four channels. -/
def plainColor? : Json → Option Color
  | .str text => Color.ofHex? text
  | .arr [r, g, b, a] =>
    do return ⟨← r.float?, ← g.float?, ← b.float?, ← a.float?⟩
  | _ => none

/-- The value of a kind that a script wrote. -/
def ofPlain? (kind : ValueKind) (tree : Json) : Option Value :=
  match kind with
  | .bool => tree.bool?.map bool
  | .integer => tree.int64?.map integer
  | .float => tree.float?.map float
  | .string => tree.string?.map string
  | .color => (plainColor? tree).map color
  | .options => tree.nat64?.map options
  | .reference => (tree.nullable? OwnerId.ofJson?).map reference
  | .trigger => some trigger
  | .integerVector =>
    (tree.pair? Json.int64? Json.int64?).map fun pair =>
      integerVector pair.1 pair.2
  | .floatVector =>
    (tree.pair? Json.float? Json.float?).map fun pair =>
      floatVector ⟨pair.1, pair.2⟩

end Value
end MotionScene
