import Mathlib.Data.Option.Basic
import MotionScene.Scene.Slot

/-!
# Places of owners

Owners are listed in places: the children or the tags of an object, the styles,
the tools.  A scene is determined by its root, its selection, what stands in
each place, and the stem of each owner, that is everything about it but its own
lists.  This module says what the basic changes of a scene do to each of these.
-/

namespace MotionScene

/-- A list of owners. -/
inductive Place where
  | children (parent : OwnerId)
  | tags (object : OwnerId)
  | styles
  | tools
deriving DecidableEq

namespace Place

/-- The object that a list belongs to. -/
def host? : Place → Option OwnerId
  | children parent => some parent
  | tags object => some object
  | styles | tools => none

/-- A position in a list. -/
def slot : Place → Nat → Slot
  | children parent => .child parent
  | tags object => .tag object
  | styles => .style
  | tools => .tool

/-- The category of the owners in a list. -/
def category : Place → Category
  | children _ => .object
  | tags _ => .tag
  | styles => .style
  | tools => .tool

/-- The list of the same sort that belongs to another object. -/
def moved (place : Place) (host : OwnerId) : Place :=
  match place with
  | children _ => children host
  | tags _ => tags host
  | styles => styles
  | tools => tools

@[simp] theorem category_moved (place : Place) (host : OwnerId) :
    (place.moved host).category = place.category := by
  cases place <;> rfl

@[simp] theorem moved_moved (place : Place) (first second : OwnerId) :
    (place.moved first).moved second = place.moved second := by
  cases place <;> rfl

theorem moved_self
    {place : Place}
    {host : OwnerId}
    (belongs : place.host? = some host) :
    place.moved host = place := by
  cases place <;> cases belongs <;> rfl

theorem host?_moved
    {place : Place}
    {host : OwnerId}
    (belongs : place.host? = some host)
    (other : OwnerId) :
    (place.moved other).host? = some other := by
  cases place <;> cases belongs <;> rfl

end Place

namespace Slot

/-- The list that a slot is in. -/
def place : Slot → Place
  | child parent _ => .children parent
  | tag object _ => .tags object
  | style _ => .styles
  | tool _ => .tools

/-- The position of a slot in its list. -/
def index : Slot → Nat
  | child _ index | tag _ index | style index | tool index => index

@[simp] theorem slot_place_index (slot : Slot) :
    slot.place.slot slot.index = slot := by
  cases slot <;> rfl

@[simp] theorem place_slot (place : Place) (index : Nat) :
    (place.slot index).place = place := by
  cases place <;> rfl

@[simp] theorem index_slot (place : Place) (index : Nat) :
    (place.slot index).index = index := by
  cases place <;> rfl

@[simp] theorem host?_place (slot : Slot) : slot.place.host? = slot.host? := by
  cases slot <;> rfl

end Slot

namespace Owner

/-- An owner without its lists. -/
def stem (owner : Owner) : Owner :=
  { owner with children := [], tags := [] }

/-- An owner without its links. -/
def content (owner : Owner) : Owner :=
  { owner with parent := none, children := [], tags := [] }

end Owner

namespace Scene

variable (scene : Scene)

/-! ## The aspects of a scene -/

/-- The owner of a number without its lists. -/
def stem? (id : OwnerId) : Option Owner :=
  (scene.owner? id).map Owner.stem

/-- The owner of a number without its links. -/
def content? (id : OwnerId) : Option Owner :=
  (scene.owner? id).map Owner.content

/-- The category of an owner. -/
def categoryOf (id : OwnerId) : Option Category :=
  (scene.owner? id).map fun owner => owner.kind.category

/-- The owner that an owner names as its parent. -/
def parentOf (id : OwnerId) : Option OwnerId :=
  (scene.owner? id).bind Owner.parent

/-- The owners that are listed in a place. -/
def entries : Place → List OwnerId
  | .children parent => ((scene.owner? parent).map Owner.children).getD []
  | .tags object => ((scene.owner? object).map Owner.tags).getD []
  | .styles => scene.styles
  | .tools => scene.tools

/-- The place that an owner belongs to by its category and its parent. -/
def home? (id : OwnerId) : Option Place :=
  match scene.categoryOf id with
  | some .object => (scene.parentOf id).map .children
  | some .tag => (scene.parentOf id).map .tags
  | some .style => some .styles
  | some .tool => some .tools
  | none => none

theorem categoryOf_eq_stem? (id : OwnerId) :
    scene.categoryOf id = (scene.stem? id).map fun owner =>
      owner.kind.category := by
  simp only [categoryOf, stem?, Option.map_map]
  rfl

theorem parentOf_eq_stem? (id : OwnerId) :
    scene.parentOf id = (scene.stem? id).bind Owner.parent := by
  simp only [parentOf, stem?, Option.bind_map]
  rfl

theorem content?_eq_stem? (id : OwnerId) :
    scene.content? id = (scene.stem? id).map Owner.content := by
  simp only [content?, stem?, Option.map_map]
  rfl

theorem categoryOf_eq_content? (id : OwnerId) :
    scene.categoryOf id = (scene.content? id).map fun owner =>
      owner.kind.category := by
  simp only [categoryOf, content?, Option.map_map]
  rfl

theorem owner?_eq_stem? (id : OwnerId) :
    scene.owner? id = (scene.stem? id).map fun owner =>
      { owner with
        children := scene.entries (.children id)
        tags := scene.entries (.tags id) } := by
  cases found : scene.owner? id <;> simp [stem?, entries, found, Owner.stem]

theorem owner?_eq_content? (id : OwnerId) :
    scene.owner? id = (scene.content? id).map fun owner =>
      { owner with
        parent := scene.parentOf id
        children := scene.entries (.children id)
        tags := scene.entries (.tags id) } := by
  cases found : scene.owner? id <;>
    simp [content?, entries, parentOf, found, Owner.content]

theorem contains_eq_categoryOf (id : OwnerId) :
    scene.contains id = (scene.categoryOf id).isSome := by
  simp [contains, categoryOf]

theorem contains_of_categoryOf
    {scene : Scene}
    {id : OwnerId}
    {category : Category}
    (known : scene.categoryOf id = some category) :
    scene.contains id = true := by
  rw [contains_eq_categoryOf, known]
  rfl

theorem categoryOf_eq_some_iff {id : OwnerId} {category : Category} :
    scene.categoryOf id = some category ↔
      ∃ owner, scene.owner? id = some owner ∧
        owner.kind.category = category := by
  simp [categoryOf]

theorem parentOf_eq_some_iff {id parent : OwnerId} :
    scene.parentOf id = some parent ↔
      ∃ owner, scene.owner? id = some owner ∧ owner.parent = some parent := by
  simp [parentOf, Option.bind_eq_some_iff]

/-- An owner belongs to a place when it is of the category that is listed there
and names the object that the place belongs to as its parent. -/
theorem home?_eq_some_iff {id : OwnerId} {place : Place} :
    scene.home? id = some place ↔
      scene.categoryOf id = some place.category ∧
        ∀ host, place.host? = some host → scene.parentOf id = some host := by
  unfold home?
  split <;> cases place <;> simp_all [Place.category, Place.host?]

/-- The parent of an object or a tag is what the place of the owner belongs
to. -/
theorem host?_of_home?
    {id parent : OwnerId}
    {place : Place}
    (home : scene.home? id = some place)
    (step : scene.parentOf id = some parent)
    (sort : scene.categoryOf id = some .object ∨
      scene.categoryOf id = some .tag) :
    place.host? = some parent := by
  obtain ⟨category, parents⟩ := scene.home?_eq_some_iff.1 home
  rw [category] at sort
  cases place with
  | children host | tags host => exact (parents host rfl).symm.trans step
  | styles | tools => rcases sort with sort | sort <;> cases sort

/-- Two scenes are equal when their owners, roots, lists and selections are. -/
theorem ext_of_owners
    {a b : Scene}
    (owners : ∀ id, a.owner? id = b.owner? id)
    (root : a.root = b.root)
    (styles : a.styles = b.styles)
    (tools : a.tools = b.tools)
    (selection : a.selection = b.selection) :
    a = b := by
  have registries : a.owners = b.owners := Registry.ext owners
  cases a
  cases b
  simp_all

/-- Two scenes are equal when their roots, selections, places and stems are. -/
theorem ext_of_places
    {a b : Scene}
    (root : a.root = b.root)
    (selection : a.selection = b.selection)
    (stems : ∀ id, a.stem? id = b.stem? id)
    (entries : ∀ place, a.entries place = b.entries place) :
    a = b := by
  refine ext_of_owners ?_ root (entries .styles) (entries .tools) selection
  intro id
  rw [owner?_eq_stem?, owner?_eq_stem?, stems, entries, entries]

/-! ## The basic changes -/

@[simp] theorem owner?_insert (owner : Owner) (id : OwnerId) :
    (scene.insert owner).owner? id =
      if owner.id = id then some owner else scene.owner? id :=
  Registry.get?_insert _ _ _

@[simp] theorem owner?_erase (id other : OwnerId) :
    (scene.erase id).owner? other =
      if id = other then none else scene.owner? other :=
  Registry.get?_erase _ _ _

theorem owner?_modify (id other : OwnerId) (change : Owner → Owner) :
    (scene.modify id change).owner? other =
      if id = other then
        (scene.owner? id).map fun owner => { change owner with id := owner.id }
      else scene.owner? other :=
  Registry.get?_modify _ _ _ _

theorem id_of_owner?
    {id : OwnerId}
    {owner : Owner}
    (found : scene.owner? id = some owner) :
    owner.id = id :=
  Registry.id_of_get? found

/-- The scene with the list of a place changed. -/
def editEntries (place : Place) (edit : List OwnerId → List OwnerId) : Scene :=
  match place with
  | .children parent =>
    scene.modify parent fun owner =>
      { owner with children := edit owner.children }
  | .tags object =>
    scene.modify object fun owner => { owner with tags := edit owner.tags }
  | .styles => { scene with styles := edit scene.styles }
  | .tools => { scene with tools := edit scene.tools }

/-- The scene with another parent for an owner. -/
def setParent (id : OwnerId) (parent : Option OwnerId) : Scene :=
  scene.modify id fun owner => { owner with parent }

/-- The object that a place belongs to exists. -/
def Offers (place : Place) : Prop :=
  ∀ host, place.host? = some host → (scene.categoryOf host).isSome

theorem eraseAt_eq (slot : Slot) :
    scene.eraseAt slot = scene.editEntries slot.place fun ids =>
      ids.eraseIdx slot.index := by
  cases slot <;> rfl

theorem insertInto_eq (id : OwnerId) (slot : Slot) :
    scene.insertInto id slot =
      scene.editEntries slot.place fun ids => insertAt ids slot.index id := by
  cases slot <;> rfl

/-- The slot of an owner is its position in the place where it belongs. -/
theorem slotOf_eq (id : OwnerId) :
    scene.slotOf id =
      (scene.home? id).bind fun place =>
        ((scene.entries place).idxOf? id).map place.slot := by
  unfold slotOf home? categoryOf
  cases found : scene.owner? id with
  | none => rfl
  | some owner =>
      have parent_eq : scene.parentOf id = owner.parent := by
        simp [parentOf, found]
      simp only [Option.bind_eq_bind, Option.bind_some,
        Option.map_some, parent_eq]
      cases owner.kind with
      | object type =>
          simp only [OwnerKind.category]
          cases owner.parent with
          | none => rfl
          | some parent =>
              cases host : scene.owner? parent <;>
                simp [entries, host, Place.slot]
              rw [Option.map_eq_bind]
              rfl
      | tag type =>
          simp only [OwnerKind.category]
          cases owner.parent with
          | none => rfl
          | some object =>
              cases host : scene.owner? object <;>
                simp [entries, host, Place.slot]
              rw [Option.map_eq_bind]
              rfl
      | style => rfl
      | tool type => rfl

/-! ### Changing the list of a place -/

@[simp] theorem root_editEntries
    (place : Place)
    (edit : List OwnerId → List OwnerId) :
    (scene.editEntries place edit).root = scene.root := by
  cases place <;> rfl

@[simp] theorem selection_editEntries
    (place : Place)
    (edit : List OwnerId → List OwnerId) :
    (scene.editEntries place edit).selection = scene.selection := by
  cases place <;> rfl

@[simp] theorem stem?_editEntries
    (place : Place)
    (edit : List OwnerId → List OwnerId)
    (id : OwnerId) :
    (scene.editEntries place edit).stem? id = scene.stem? id := by
  cases place with
  | children host | tags host =>
      simp only [editEntries, stem?, owner?_modify]
      split
      · next same =>
        subst same
        simp only [Option.map_map]
        rfl
      · rfl
  | styles | tools => rfl

@[simp] theorem content?_editEntries
    (place : Place)
    (edit : List OwnerId → List OwnerId)
    (id : OwnerId) :
    (scene.editEntries place edit).content? id = scene.content? id := by
  simp only [content?_eq_stem?, stem?_editEntries]

@[simp] theorem categoryOf_editEntries
    (place : Place)
    (edit : List OwnerId → List OwnerId)
    (id : OwnerId) :
    (scene.editEntries place edit).categoryOf id = scene.categoryOf id := by
  simp only [categoryOf_eq_stem?, stem?_editEntries]

@[simp] theorem parentOf_editEntries
    (place : Place)
    (edit : List OwnerId → List OwnerId)
    (id : OwnerId) :
    (scene.editEntries place edit).parentOf id = scene.parentOf id := by
  simp only [parentOf_eq_stem?, stem?_editEntries]

theorem entries_editEntries
    {place : Place}
    (offers : scene.Offers place)
    (edit : List OwnerId → List OwnerId)
    (other : Place) :
    (scene.editEntries place edit).entries other =
      if place = other then edit (scene.entries place)
      else scene.entries other := by
  cases place with
  | children host | tags host =>
      have exists_host := offers host rfl
      simp only [categoryOf, Option.isSome_map] at exists_host
      obtain ⟨owner, found⟩ := Option.isSome_iff_exists.1 exists_host
      cases other with
      | children other | tags other =>
          by_cases same : host = other
          · subst same
            simp [editEntries, entries, owner?_modify, found]
          · simp [editEntries, entries, owner?_modify, same]
      | styles | tools => rfl
  | styles | tools => cases other <;> rfl

/-! ### Changing the parent of an owner -/

@[simp] theorem root_setParent (id : OwnerId) (parent : Option OwnerId) :
    (scene.setParent id parent).root = scene.root := rfl

@[simp] theorem selection_setParent (id : OwnerId) (parent : Option OwnerId) :
    (scene.setParent id parent).selection = scene.selection := rfl

theorem stem?_setParent (id other : OwnerId) (parent : Option OwnerId) :
    (scene.setParent id parent).stem? other =
      if id = other then (scene.stem? id).map fun owner => { owner with parent }
      else scene.stem? other := by
  simp only [setParent, stem?, owner?_modify]
  split
  · simp only [Option.map_map]
    rfl
  · rfl

@[simp] theorem content?_setParent
    (id other : OwnerId)
    (parent : Option OwnerId) :
    (scene.setParent id parent).content? other = scene.content? other := by
  rw [content?_eq_stem?, content?_eq_stem?, stem?_setParent]
  split
  · next same =>
    subst same
    simp only [Option.map_map]
    rfl
  · rfl

@[simp] theorem categoryOf_setParent
    (id other : OwnerId)
    (parent : Option OwnerId) :
    (scene.setParent id parent).categoryOf other = scene.categoryOf other := by
  simp only [categoryOf_eq_content?, content?_setParent]

theorem parentOf_setParent (id other : OwnerId) (parent : Option OwnerId) :
    (scene.setParent id parent).parentOf other =
      if id = other then (scene.categoryOf id).bind fun _ => parent
      else scene.parentOf other := by
  simp only [setParent, parentOf, categoryOf, owner?_modify]
  split
  · cases scene.owner? id <;> rfl
  · rfl

@[simp] theorem entries_setParent
    (id : OwnerId)
    (parent : Option OwnerId)
    (place : Place) :
    (scene.setParent id parent).entries place = scene.entries place := by
  cases place with
  | children host | tags host =>
      simp only [setParent, entries, owner?_modify]
      split
      · next same =>
        subst same
        simp only [Option.map_map]
        rfl
      · rfl
  | styles | tools => rfl

/-! ### Registering and erasing owners -/

theorem content?_insert (owner : Owner) (id : OwnerId) :
    (scene.insert owner).content? id =
      if owner.id = id then some owner.content else scene.content? id := by
  simp only [content?, owner?_insert]
  split <;> rfl

theorem categoryOf_insert (owner : Owner) (id : OwnerId) :
    (scene.insert owner).categoryOf id =
      if owner.id = id then some owner.kind.category
      else scene.categoryOf id := by
  simp only [categoryOf, owner?_insert]
  split <;> rfl

theorem parentOf_insert (owner : Owner) (id : OwnerId) :
    (scene.insert owner).parentOf id =
      if owner.id = id then owner.parent else scene.parentOf id := by
  simp only [parentOf, owner?_insert]
  split <;> rfl

theorem entries_insert (owner : Owner) (place : Place) :
    (scene.insert owner).entries place =
      match place with
      | .children id =>
        if owner.id = id then owner.children else scene.entries (.children id)
      | .tags id =>
        if owner.id = id then owner.tags else scene.entries (.tags id)
      | .styles => scene.styles
      | .tools => scene.tools := by
  cases place with
  | children id | tags id =>
      simp only [entries, owner?_insert]
      split <;> rfl
  | styles | tools => rfl

end Scene
end MotionScene
