import MotionScene.Command.PathChange
import MotionScene.Proofs.Command.Lawful

/-!
# Editing paths is lawful

The geometry of a path is a cell of the scene, and the command remembers both
contents of the cell.
-/

namespace MotionScene

namespace Scene

variable {scene changed : Scene} {id : OwnerId} {shape : Path Float}

/-- The scene with another geometry for an owner. -/
def reshaped (scene : Scene) (id : OwnerId) (shape : Path Float) : Scene :=
  scene.modify id fun owner => { owner with geometry := some shape }

theorem geometry_eq_ok_iff :
    scene.geometry id = .ok shape ↔
      ∃ owner, scene.owner? id = some owner ∧ owner.geometry = some shape := by
  simp only [Scene.geometry, Attempt.bind_eq_ok_iff, owner_eq_ok_iff]
  refine exists_congr fun owner => and_congr_right fun _ => ?_
  cases owner.geometry <;> simp

theorem setGeometry_eq_ok_iff :
    scene.setGeometry id shape = .ok changed ↔
      (∃ old, scene.geometry id = .ok old) ∧
        changed = scene.reshaped id shape := by
  simp only [setGeometry, Attempt.bind_eq_ok_iff, Attempt.pure_eq_ok,
    Except.ok.injEq]
  constructor
  · rintro ⟨old, known, rfl⟩
    exact ⟨⟨old, known⟩, rfl⟩
  · rintro ⟨⟨old, known⟩, rfl⟩
    exact ⟨old, known, rfl⟩

theorem owner?_reshaped (other : OwnerId) :
    (scene.reshaped id shape).owner? other =
      if id = other then
        (scene.owner? other).map fun owner =>
          { owner with geometry := some shape }
      else scene.owner? other := by
  rw [reshaped, owner?_modify]
  split
  · next same => rw [same]
  · rfl

theorem geometry_reshaped
    {old : Path Float}
    (known : scene.geometry id = .ok old)
    (shape : Path Float) :
    (scene.reshaped id shape).geometry id = .ok shape := by
  obtain ⟨owner, found, _⟩ := geometry_eq_ok_iff.1 known
  refine geometry_eq_ok_iff.2 ⟨{ owner with geometry := some shape }, ?_, rfl⟩
  rw [owner?_reshaped, if_pos rfl, found]
  rfl

theorem reshaped_back
    {old : Path Float}
    (known : scene.geometry id = .ok old)
    (shape : Path Float) :
    (scene.reshaped id shape).reshaped id old = scene := by
  obtain ⟨owner, found, isOld⟩ := geometry_eq_ok_iff.1 known
  refine ext_of_owners ?_ rfl rfl rfl rfl
  intro other
  simp only [owner?_reshaped]
  split
  · next same =>
    subst same
    rw [found, ← isOld]
    rfl
  · rfl

theorem sameLinks_reshaped : scene.SameLinks (scene.reshaped id shape) :=
  sameLinks_modify _ (fun _ => rfl) (fun _ => rfl) (fun _ => rfl) (fun _ => rfl)

/-- An owner that has a geometry may have another one. -/
theorem Sound.reshaped
    (sound : scene.Sound)
    {old : Path Float}
    (known : scene.geometry id = .ok old) :
    (scene.reshaped id shape).Sound := by
  obtain ⟨path, isPath, hasShape⟩ := geometry_eq_ok_iff.1 known
  have original : ∀ other owner,
      (scene.reshaped id shape).owner? other = some owner →
      ∃ before, scene.owner? other = some before ∧
        owner.properties = before.properties ∧ owner.Sound := by
    intro other owner found
    rw [owner?_reshaped] at found
    split at found
    · next same =>
      subst same
      rw [isPath] at found
      cases found
      have pathSound := sound.owner isPath
      refine ⟨path, isPath, rfl, ?_, pathSound.names, pathSound.properties⟩
      rw [← pathSound.geometry_iff, hasShape]
      rfl
    · exact ⟨owner, found, rfl, sound.owner found⟩
  have categories : ∀ other category, scene.categoryOf other = some category →
      (scene.reshaped id shape).categoryOf other = some category := by
    intro other category isCategory
    rw [sameLinks_reshaped.category]
    exact isCategory
  constructor
  · intro other content found
    obtain ⟨owner, isOwner, rfl⟩ := content?_eq_some_iff.1 found
    obtain ⟨_, _, _, ownerSound⟩ := original other owner isOwner
    exact ownerSound.congr rfl
  · intro other content found property member
    obtain ⟨owner, isOwner, rfl⟩ := content?_eq_some_iff.1 found
    obtain ⟨before, isBefore, sameProperties, _⟩ := original other owner isOwner
    have listed : property ∈ before.properties := sameProperties ▸ member
    exact (sound.references other _
      (content?_of_owner? isBefore) property listed).mono categories
  · intro other member
    rw [contains_eq_categoryOf,
      sameLinks_reshaped.category, ← contains_eq_categoryOf]
    exact sound.selection other member

end Scene

namespace EditPath

/-- Editing the geometry of a path is lawful. -/
theorem lawful
    {document : Document}
    (wellFormed : document.WellFormed)
    {command : EditPath}
    (fresh : command.states = none) :
    Lawful apply revert document (command.apply document) := by
  rw [apply]
  cases both : command.sides document.scene with
  | error fault => exact .ofFailed command fault
  | ok pair =>
      obtain ⟨before, after⟩ := pair
      simp only
      split
      · exact .ofIdle command
      · next differs =>
        have known : document.scene.geometry command.path = .ok before := by
          rw [sides, fresh] at both
          obtain ⟨old, known, both⟩ := Attempt.bind_eq_ok_iff.1 both
          obtain ⟨new, _, both⟩ := Attempt.bind_eq_ok_iff.1 both
          cases both
          exact known
        have stored : document.scene.setGeometry command.path after =
            .ok (document.scene.reshaped command.path after) :=
          Scene.setGeometry_eq_ok_iff.2 ⟨⟨before, known⟩, rfl⟩
        have restored : (document.scene.reshaped command.path after).setGeometry
            command.path before = .ok document.scene :=
          Scene.setGeometry_eq_ok_iff.2
            ⟨⟨after, Scene.geometry_reshaped known after⟩,
              (Scene.reshaped_back known after).symm⟩
        rw [stored]
        refine .ofScene
          (wellFormed.withScene ?_ (wellFormed.sound.reshaped known) ?_)
          ⟨?_, ?_⟩
        · exact wellFormed.linked.congr Scene.sameLinks_reshaped
        · intro id member
          rwa [Scene.contains_eq_categoryOf, Scene.sameLinks_reshaped.category,
            ← Scene.contains_eq_categoryOf] at member
        · intro again isAfter
          simp only [revert, isAfter, restored]
          rfl
        · intro again isBefore
          rw [apply]
          simp only [sides, isBefore, stored]
          rw [if_neg differs]

end EditPath
end MotionScene
