import MotionScene.Owner.Basic
import MotionScene.Settings.Basic

/-!
# New owners

The properties that an owner of each kind starts with.
-/

namespace MotionScene
namespace Owner

/-- What every object starts with. -/
def commonProperties (type : ObjectType) : List Property :=
  [.ofValue "name" (.string type.title),
    .ofValue "visible" (.bool true),
    .ofValue "position" (.floatVector .zero),
    .ofValue "rotation" (.float 0.0),
    .ofValue "scale" (.floatVector ⟨1.0, 1.0⟩)]

/-- What an object of a type has beside that. -/
def shapeProperties (settings : PathSettings) : ObjectType → List Property
  | .empty | .path => []
  | .ellipse =>
    [(Property.ofValue "radius" (.float 100.0)).withBounds 0.0 1000.0,
      (Property.ofValue "segments"
        (.integer settings.ellipseSegments)).withBounds 3.0 256.0]
  | .rectangle =>
    [(Property.ofValue "size" (.floatVector ⟨200.0, 100.0⟩)).withMin 0.0]

/-- What a tag of a type starts with. -/
def tagProperties : TagType → List Property
  | .style =>
    [.ofValue "name" (.string "Style Tag"), .referring "style" [.style]]
  | .path =>
    [.ofValue "name" (.string "Path Tag"),
      .referring "path" [.object],
      ((Property.ofValue "t" (.float 0.0)).withBounds 0.0 1.0).withStep 0.01,
      .ofValue "align" (.bool false)]

/-- What a style starts with. -/
def styleProperties : List Property :=
  [.ofValue "name" (.string "Style"),
    .ofValue "pen_color" (.color .black),
    ((Property.ofValue "pen_width" (.float 1.0)).withBounds 0.0 100.0).withStep
      0.1,
    .choice "pen_style" ["solid", "dashed", "dotted"] 0,
    .ofValue "brush_color" (.color .white),
    .ofValue "fill" (.bool true)]

/-- What a tool of a type starts with. -/
def toolProperties : ToolType → List Property
  | .select =>
    [.ofValue "name" (.string "Select"),
      .choice "mode" ["objects", "points"] 0,
      .ofValue "snap" (.bool false),
      (Property.ofValue "grid" (.integerVector 10 10)).withBounds 1.0 1000.0,
      .ofValue "reset" .trigger]

/-- The properties an owner of a kind starts with. -/
def defaultProperties (kind : OwnerKind) (settings : PathSettings) :
    List Property :=
  match kind with
  | .object type => commonProperties type ++ shapeProperties settings type
  | .tag type => tagProperties type
  | .style => styleProperties
  | .tool type => toolProperties type

/-- A new owner of a kind. -/
def ofKind (id : OwnerId) (kind : OwnerKind)
    (settings : PathSettings) : Owner :=
  new id kind (defaultProperties kind settings)

end Owner
end MotionScene
