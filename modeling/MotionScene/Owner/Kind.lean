import MotionScene.Json.Record

/-!
# Kinds of owners

Objects form the tree of the scene, tags hang on objects, styles and tools stand
in lists of their own.
-/

namespace MotionScene

/-- What kind of object an owner is. -/
inductive ObjectType where
  | empty
  | ellipse
  | rectangle
  | path
deriving DecidableEq, Repr

namespace ObjectType

/-- Every type of object, in declared order. -/
def all : List ObjectType := [empty, ellipse, rectangle, path]

/-- The name in stored documents. -/
def name : ObjectType → String
  | empty => "empty"
  | ellipse => "ellipse"
  | rectangle => "rectangle"
  | path => "path"

/-- The name shown to people. -/
def title : ObjectType → String
  | empty => "Empty"
  | ellipse => "Ellipse"
  | rectangle => "Rectangle"
  | path => "Path"

/-- The type of a stored name. -/
def ofName? (text : String) : Option ObjectType :=
  all.find? fun type => type.name == text

/-- Whether an object can be replaced by a path of the same shape. -/
def isConvertible : ObjectType → Bool
  | ellipse | rectangle => true
  | empty | path => false

end ObjectType

/-- What kind of tag an owner is: it gives its object a style, or places it on a
path. -/
inductive TagType where
  | style
  | path
deriving DecidableEq, Repr

namespace TagType

/-- The name in stored documents. -/
def name : TagType → String
  | style => "style"
  | path => "path"

/-- The name shown to people. -/
def title : TagType → String
  | style => "Style"
  | path => "Path"

/-- The type of a stored name. -/
def ofName? (text : String) : Option TagType :=
  [style, path].find? fun type => type.name == text

end TagType

/-- What kind of tool an owner is. -/
inductive ToolType where
  | select
deriving DecidableEq, Repr

namespace ToolType

/-- The name in stored documents. -/
def name : ToolType → String
  | select => "select"

/-- The name shown to people. -/
def title : ToolType → String
  | select => "Select"

/-- The type of a stored name. -/
def ofName? (text : String) : Option ToolType :=
  [select].find? fun type => type.name == text

end ToolType

/-- The coarse sort of an owner, by which references are restricted. -/
inductive Category where
  | object
  | tag
  | style
  | tool
deriving DecidableEq, Repr

namespace Category

/-- Every category, in declared order. -/
def all : List Category := [object, tag, style, tool]

/-- The name in stored documents. -/
def name : Category → String
  | object => "object"
  | tag => "tag"
  | style => "style"
  | tool => "tool"

/-- The category of a stored name. -/
def ofName? (text : String) : Option Category :=
  all.find? fun category => category.name == text

/-- A category is stored as its name. -/
def toJson (category : Category) : Json :=
  .str category.name

/-- The category of a name, bare or over null. -/
def ofJson? (tree : Json) : Option Category :=
  tree.choice? ofName?

end Category

/-- The kind of an owner. -/
inductive OwnerKind where
  | object (type : ObjectType)
  | tag (type : TagType)
  | style
  | tool (type : ToolType)
deriving DecidableEq, Repr

namespace OwnerKind

/-- The category that the kind belongs to. -/
def category : OwnerKind → Category
  | object _ => .object
  | tag _ => .tag
  | style => .style
  | tool _ => .tool

/-- Whether the owner is part of the tree and may have children. -/
def isObject (kind : OwnerKind) : Bool :=
  kind.category = .object

/-- Whether the owner hangs on an object as a tag. -/
def isTag (kind : OwnerKind) : Bool :=
  kind.category = .tag

/-- The type of an object; nothing for the other owners. -/
def objectType? : OwnerKind → Option ObjectType
  | object type => some type
  | _ => none

/-- Whether the owner is an object that can be replaced by a path. -/
def isConvertible : OwnerKind → Bool
  | object type => type.isConvertible
  | _ => false

/-- Whether the owner has a geometry of its own. -/
def isPath (kind : OwnerKind) : Bool :=
  kind = .object .path

/-- The kind as messages show it. -/
def describe : OwnerKind → String
  | object type => "object/" ++ type.title
  | tag type => "tag/" ++ type.title
  | style => "style"
  | tool type => "tool/" ++ type.title

/-- The name of the type within its category, if the category has several. -/
def typeName? : OwnerKind → Option String
  | object type => some type.name
  | tag type => some type.name
  | style => none
  | tool type => some type.name

/-- The kind as stored documents have it: its category, with the type where
there is one. -/
def toJson (kind : OwnerKind) : Json :=
  .obj (("category", kind.category.toJson) ::
    Json.optionalField "type" Json.str kind.typeName?)

/-- The kind of a category and its stored type. -/
def ofContent? (category : Category) (content : Option Json) :
    Option OwnerKind :=
  match category with
  | .object =>
    (Json.required (Json.choice? ObjectType.ofName?) content).map object
  | .tag => (Json.required (Json.choice? TagType.ofName?) content).map tag
  | .style => (Json.noContent? content).map fun _ => style
  | .tool => (Json.required (Json.choice? ToolType.ofName?) content).map tool

/-- The kind of a record that is told apart by its category. -/
def ofJson? (tree : Json) : Option OwnerKind := do
  let (name, content) ← tree.tagged? "category" "type"
  ofContent? (← Category.ofName? name) content

end OwnerKind
end MotionScene
