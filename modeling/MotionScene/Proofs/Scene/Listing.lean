import MotionScene.Proofs.Scene.WellFormed

/-!
# Every owner is listed once

When every owner stands where it belongs, all lists taken together name each
owner but the root once and nothing else.  The order of a document, that is the
walk down from the root followed by the styles and the tools, names every owner
once, the root included.
-/

namespace MotionScene
namespace Scene

variable {scene : Scene} {id : OwnerId}

/-- All entries of all lists: children and tags, then styles, then tools. -/
def listings (scene : Scene) : List OwnerId :=
  scene.links ++ scene.styles ++ scene.tools

theorem mem_links_iff :
    id ∈ scene.links ↔
      ∃ host, id ∈ scene.entries (.children host) ∨
        id ∈ scene.entries (.tags host) := by
  simp only [links, List.mem_flatMap, List.mem_append, mem_toList_iff]
  constructor
  · rintro ⟨owner, found, member⟩
    exact ⟨owner.id, by simpa [entries, found] using member⟩
  · rintro ⟨host, child | tag⟩
    · obtain ⟨owner, found, member⟩ := Demands.owner_of_mem_children child
      exact ⟨owner, by rwa [scene.id_of_owner? found], Or.inl member⟩
    · obtain ⟨owner, found, member⟩ := Demands.owner_of_mem_tags tag
      exact ⟨owner, by rwa [scene.id_of_owner? found], Or.inr member⟩

theorem mem_listings_iff :
    id ∈ scene.listings ↔ ∃ place, id ∈ scene.entries place := by
  simp only [listings, List.mem_append, mem_links_iff]
  constructor
  · rintro ((⟨host, child | tag⟩ | style) | tool)
    · exact ⟨.children host, child⟩
    · exact ⟨.tags host, tag⟩
    · exact ⟨.styles, style⟩
    · exact ⟨.tools, tool⟩
  · rintro ⟨place, member⟩
    cases place with
    | children host => exact Or.inl (Or.inl ⟨host, Or.inl member⟩)
    | tags host => exact Or.inl (Or.inl ⟨host, Or.inr member⟩)
    | styles => exact Or.inl (Or.inr member)
    | tools => exact Or.inr member

namespace Linked

/-- No owner is listed in two places. -/
theorem place_unique
    (linked : scene.Linked ∅)
    {place other : Place}
    (member : id ∈ scene.entries place)
    (again : id ∈ scene.entries other) :
    place = other := by
  have home := ((linked.listed place id).1 member).1
  have same := ((linked.listed other id).1 again).1
  exact Option.some.inj (home.symm.trans same)

/-- Objects and tags are what lies beneath the root. -/
theorem climbs_root_iff (linked : scene.Linked ∅) :
    scene.Climbs id scene.root ↔
      scene.categoryOf id = some .object ∨ scene.categoryOf id = some .tag := by
  constructor
  · intro climbs
    rcases climbs.cases_head with rfl | ⟨parent, step, _⟩
    · exact Or.inl linked.root_category
    · exact linked.child_category id parent step
  · intro sort
    obtain ⟨top, climbs, rfl | isLoose⟩ := linked.rooted id sort
    · exact climbs
    · exact absurd isLoose (Set.notMem_empty top)

/-- Every owner but the root belongs to a place. -/
theorem exists_home_iff (linked : scene.Linked ∅) :
    (∃ place, scene.home? id = some place) ↔
      scene.contains id = true ∧ id ≠ scene.root := by
  constructor
  · rintro ⟨place, home⟩
    refine ⟨contains_of_categoryOf (scene.home?_eq_some_iff.1 home).1, ?_⟩
    rintro rfl
    rw [linked.home?_root] at home
    cases home
  · rintro ⟨known, differs⟩
    exact linked.exists_home known differs (Set.notMem_empty id)

theorem mem_listings (linked : scene.Linked ∅) :
    id ∈ scene.listings ↔ scene.contains id = true ∧ id ≠ scene.root := by
  rw [mem_listings_iff, ← linked.exists_home_iff]
  exact exists_congr fun place =>
    (linked.listed place id).trans (and_iff_left (Set.notMem_empty id))

theorem nodup_listings (linked : scene.Linked ∅) : scene.listings.Nodup := by
  have styled : ∀ {id place}, id ∈ scene.entries place → id ∈ scene.styles →
      place = .styles :=
    fun member style => linked.place_unique member style
  have tooled : ∀ {id place}, id ∈ scene.entries place → id ∈ scene.tools →
      place = .tools :=
    fun member tool => linked.place_unique member tool
  simp only [listings, List.nodup_append, mem_links_iff, List.mem_append]
  refine ⟨⟨linked.nodup_links, linked.nodup .styles, ?_⟩,
    linked.nodup .tools, ?_⟩
  · rintro id ⟨host, child | tag⟩ _ style rfl
    · cases styled child style
    · cases styled tag style
  · rintro id (⟨host, child | tag⟩ | style) _ tool rfl
    · cases tooled child tool
    · cases tooled tag tool
    · cases tooled (show id ∈ scene.entries .styles from style) tool

/-- All lists together name each owner but the root once, and nothing else. -/
theorem count_listings (linked : scene.Linked ∅) (id : OwnerId) :
    scene.listings.count id =
      if scene.contains id = true ∧ id ≠ scene.root then 1 else 0 := by
  rw [linked.nodup_listings.count]
  simp only [linked.mem_listings]

/-! ## The order of a document -/

theorem mem_orderedIds_iff (linked : scene.Linked ∅) :
    id ∈ scene.orderedIds ↔ scene.contains id = true := by
  have styles := linked.listed .styles id
  have tools := linked.listed .tools id
  simp only [home?_eq_some_iff, entries, Place.category, Place.host?,
    reduceCtorEq, false_implies, implies_true, and_true,
    Set.mem_empty_iff_false, not_false_eq_true] at styles tools
  rw [orderedIds, List.mem_append, List.mem_append, linked.mem_subtree_iff,
    linked.climbs_root_iff, styles, tools, contains_eq_categoryOf]
  cases scene.categoryOf id with
  | none => simp
  | some category => cases category <;> simp

theorem nodup_orderedIds (linked : scene.Linked ∅) :
    scene.orderedIds.Nodup := by
  have walked : ∀ id ∈ scene.subtree scene.root,
      scene.categoryOf id = some .object ∨ scene.categoryOf id = some .tag :=
    fun id member => linked.climbs_root_iff.1 (linked.mem_subtree_iff.1 member)
  have styles : ∀ id ∈ scene.styles, scene.categoryOf id = some .style :=
    fun id member =>
      (scene.home?_eq_some_iff.1 ((linked.listed .styles id).1 member).1).1
  have tools : ∀ id ∈ scene.tools, scene.categoryOf id = some .tool :=
    fun id member =>
      (scene.home?_eq_some_iff.1 ((linked.listed .tools id).1 member).1).1
  simp only [orderedIds, List.nodup_append, List.mem_append]
  refine ⟨⟨nodup_subtree _ _, linked.nodup .styles, ?_⟩,
    linked.nodup .tools, ?_⟩
  · rintro id beneath _ style rfl
    have sort := walked id beneath
    rw [styles id style] at sort
    rcases sort with sort | sort <;> cases sort
  · rintro id (beneath | style) _ tool rfl
    · have sort := walked id beneath
      rw [tools id tool] at sort
      rcases sort with sort | sort <;> cases sort
    · have sort := styles id style
      rw [tools id tool] at sort
      cases sort

end Linked

end Scene
end MotionScene
