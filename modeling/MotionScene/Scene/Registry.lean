import MotionScene.Owner.Basic
import Std.Data.ExtTreeMap
import Std.Data.ExtTreeSet

/-!
# The registry of owners

All owners of a scene, found by number and listed in ascending order of numbers.
Every owner is registered under its own number.
-/

namespace MotionScene

/-- A finite set of owners. -/
abbrev OwnerSet := Std.ExtTreeSet OwnerId

/-- Owners by number. -/
structure Registry where
  byId : Std.ExtTreeMap OwnerId Owner
  keyed : ∀ (id : OwnerId) (owner : Owner), byId[id]? = some owner →
    owner.id = id
deriving DecidableEq

namespace Registry

/-- No owners. -/
def empty : Registry where
  byId := ∅
  keyed := by simp

/-- The owner of a number. -/
def get? (registry : Registry) (id : OwnerId) : Option Owner :=
  registry.byId[id]?

/-- How many owners there are. -/
def size (registry : Registry) : Nat :=
  registry.byId.size

/-- All owners in ascending order. -/
def toList (registry : Registry) : List Owner :=
  registry.byId.toList.map Prod.snd

/-- All numbers in ascending order. -/
def ids (registry : Registry) : List OwnerId :=
  registry.byId.keys

/-- The registry with an owner put under its number. -/
def insert (registry : Registry) (owner : Owner) : Registry where
  byId := registry.byId.insert owner.id owner
  keyed id other found := by
    rw [Std.ExtTreeMap.getElem?_insert] at found
    split at found
    · next same =>
      cases found
      exact Std.LawfulEqOrd.eq_of_compare same
    · exact registry.keyed id other found

/-- The registry without the owner of a number. -/
def erase (registry : Registry) (id : OwnerId) : Registry where
  byId := registry.byId.erase id
  keyed other owner found := by
    rw [Std.ExtTreeMap.getElem?_erase] at found
    split at found
    · cases found
    · exact registry.keyed other owner found

/-- The registry with the owner of a number changed; its number stays. -/
def modify (registry : Registry) (id : OwnerId) (change : Owner → Owner) :
    Registry :=
  match registry.get? id with
  | some owner => registry.insert { change owner with id := owner.id }
  | none => registry

@[ext] theorem ext {a b : Registry} (same : ∀ id, a.get? id = b.get? id) :
    a = b := by
  have equal : a.byId = b.byId := Std.ExtTreeMap.ext_getElem? same
  cases a
  cases b
  cases equal
  rfl

@[simp] theorem get?_empty (id : OwnerId) : empty.get? id = none := by
  simp [get?, empty]

theorem get?_insert (registry : Registry) (owner : Owner) (id : OwnerId) :
    (registry.insert owner).get? id =
      if owner.id = id then some owner else registry.get? id := by
  simp [get?, insert, Std.ExtTreeMap.getElem?_insert]

theorem get?_erase (registry : Registry) (id other : OwnerId) :
    (registry.erase id).get? other =
      if id = other then none else registry.get? other := by
  simp [get?, erase, Std.ExtTreeMap.getElem?_erase]

theorem id_of_get? {registry : Registry} {id : OwnerId} {owner : Owner}
    (found : registry.get? id = some owner) : owner.id = id :=
  registry.keyed id owner found

theorem mem_toList {registry : Registry} {owner : Owner} :
    owner ∈ registry.toList ↔ registry.get? owner.id = some owner := by
  simp only [toList, List.mem_map, get?, Prod.exists, exists_eq_right]
  constructor
  · rintro ⟨id, found⟩
    rw [Std.ExtTreeMap.mem_toList_iff_getElem?_eq_some] at found
    rw [registry.keyed id owner found]
    exact found
  · intro found
    exact ⟨owner.id, Std.ExtTreeMap.mem_toList_iff_getElem?_eq_some.2 found⟩

theorem get?_modify
    (registry : Registry)
    (id other : OwnerId)
    (change : Owner → Owner) :
    (registry.modify id change).get? other =
      if id = other then
        (registry.get? id).map fun owner => { change owner with id := owner.id }
      else registry.get? other := by
  unfold modify
  cases found : registry.get? id with
  | none =>
    by_cases same : id = other
    · simp [← same, found]
    · simp [same]
  | some owner =>
    simp only [get?_insert, id_of_get? found, Option.map_some]

end Registry
end MotionScene
