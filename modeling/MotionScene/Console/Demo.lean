import MotionScene.Editor

/-!
# A small document

A document to start from: an ellipse with an animated radius, a rectangle with a
style, and a path.
-/

namespace MotionScene
namespace Demo

/-- Carries an edit out, which has to succeed. -/
def pushed (editor : Editor Edit) (edit : Edit) : Except Fault (Editor Edit) :=
  let (editor, result) := editor.push (.single edit)
  result.map fun _ => editor

/-- The geometry of the path. -/
def geometry : Path Float :=
  ⟨[.linear ⟨0.0, 0.0⟩, .smooth ⟨50.0, 80.0⟩ ⟨20.0, 0.0⟩,
    .linear ⟨100.0, 0.0⟩], false⟩

/-- The document. -/
def document (id : DocumentId) (settings : Settings) :
    Except Fault Document := do
  let editor : Editor Edit := .new id settings
  let root := editor.document.scene.root
  let (editor, ellipse) ← editor.createOwner (.object .ellipse)
  let (editor, rectangle) ← editor.createOwner (.object .rectangle)
  let rectangle ← rectangle.withValue "position" (.floatVector ⟨300.0, 0.0⟩)
  let (editor, style) ← editor.createOwner .style
  let style ← style.withValue "brush_color" (.color .pureBlue)
  let (editor, tag) ← editor.createOwner (.tag .style)
  let (editor, path) ← editor.createOwner (.object .path)
  let path := path.withGeometry geometry
  let (editor, token) ← editor.beginGroup "Create demo scene"
  let editor ← pushed editor (.addOwners
    { items := [⟨ellipse, .child root 0⟩, ⟨rectangle, .child root 1⟩,
      ⟨path, .child root 2⟩,
        ⟨style, .style 0⟩, ⟨tag, .tag rectangle.id 0⟩] })
  let editor ← pushed editor
    (.setProperty (.new [tag.id] "style" (.reference (some style.id))))
  let radius : PropertyAddress := ⟨ellipse.id, "radius"⟩
  let editor ← pushed editor (.createKeyframe
    { address := radius,
      keyframe := ⟨settings.animation.startFrame, .float 20.0, none⟩ })
  let editor ← pushed editor (.createKeyframe
    { address := radius,
      keyframe := ⟨settings.animation.endFrame, .float 200.0, none⟩ })
  let (editor, _) ← editor.endGroup token
  return editor.document

end Demo
end MotionScene
