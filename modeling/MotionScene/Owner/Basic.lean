import MotionScene.Curve.Path
import MotionScene.Owner.Kind
import MotionScene.Property.Basic

/-!
# Owners

An owner holds named properties.  Objects also own child objects and tags; they
name each other by number, and the document looks numbers up.
-/

namespace MotionScene

/-- Something with properties: an object, a tag, a style or a tool. -/
structure Owner where
  id : OwnerId
  kind : OwnerKind
  properties : List Property
  parent : Option OwnerId := none
  children : List OwnerId := []
  tags : List OwnerId := []
  geometry : Option (Path Float) := none
deriving DecidableEq, Repr

namespace Owner

/-- An owner that hangs nowhere; a path starts without knots. -/
def new (id : OwnerId) (kind : OwnerKind)
    (properties : List Property) : Owner :=
  { id, kind, properties,
    geometry := if kind.isPath then some .empty else none }

/-- Whether two owners are equal, doubles as numbers. -/
def agrees (a b : Owner) : Bool :=
  a.id = b.id && a.kind = b.kind &&
    Agreement.list Property.agrees a.properties b.properties &&
    a.parent = b.parent && a.children = b.children && a.tags = b.tags &&
    Agreement.option Path.agrees a.geometry b.geometry

/-- The first property of a name. -/
def property? (owner : Owner) (name : String) : Option Property :=
  owner.properties.find? fun property => property.name == name

/-- A list of properties with the first one of a name changed. -/
def changeFirst (name : String) (change : Property → Property) :
    List Property → List Property
  | [] => []
  | property :: rest =>
    if property.name = name then change property :: rest
    else property :: changeFirst name change rest

/-- The owner with the first property of a name changed. -/
def modifyProperty
    (owner : Owner)
    (name : String)
    (change : Property → Property) :
    Owner :=
  { owner with properties := changeFirst name change owner.properties }

/-- What the owner is called. -/
def name? (owner : Owner) : Option String :=
  (owner.property? "name").bind fun property => property.value.string?

/-- The owner under another name. -/
def withName (owner : Owner) (name : String) : Owner :=
  owner.modifyProperty "name" fun property =>
    { property with value := .string name }

/-- The owner with a property assigned. -/
def withValue (owner : Owner) (name : String) (value : Value) :
    Except Fault Owner :=
  match owner.property? name with
  | none => .error (.unknownProperty owner.id name)
  | some property => do
    match ← property.assign? value with
    | some assigned => return owner.modifyProperty name fun _ => assigned
    | none => return owner

/-- The owner with another geometry, if it has one at all. -/
def withGeometry (owner : Owner) (geometry : Path Float) : Owner :=
  { owner with geometry := owner.geometry.map fun _ => geometry }

/-! ## Stored form -/

/-- A field for a list of owners, absent when the list is empty. -/
def idsField (name : String) (ids : List OwnerId) : List (String × Json) :=
  if ids.isEmpty then [] else [(name, .ofList OwnerId.toJson ids)]

/-- The owner as stored documents have it; an owner without a parent stores null
there. -/
def toJson (owner : Owner) : Json :=
  .obj ([("id", owner.id.toJson), ("kind", owner.kind.toJson),
    ("properties", .ofList Property.toJson owner.properties),
    ("parent", .ofOption OwnerId.toJson owner.parent)] ++
    idsField "children" owner.children ++ idsField "tags" owner.tags ++
    Json.optionalField "geometry" Path.toJson owner.geometry)

/-- The owner of a record; links and geometry may be missing. -/
def ofJson? (tree : Json) : Option Owner := do
  match ← tree.record?
    ["id", "kind", "properties", "parent", "children", "tags", "geometry"] with
  | [id, kind, properties, parent, children, tags, geometry] =>
    return ⟨← Json.required OwnerId.ofJson? id,
      ← Json.required OwnerKind.ofJson? kind,
      ← Json.required (Json.list? Property.ofJson?) properties,
      ← Json.withDefault none (Json.nullable? OwnerId.ofJson?) parent,
      ← Json.withDefault [] (Json.list? OwnerId.ofJson?) children,
      ← Json.withDefault [] (Json.list? OwnerId.ofJson?) tags,
      ← Json.withDefault none (Json.nullable? Path.ofJson?) geometry⟩
  | _ => none

end Owner
end MotionScene
