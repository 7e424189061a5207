import MotionScene.Proofs.Document.Opening
import MotionScene.Proofs.Scene.Listing

/-!
# Saving and loading

A snapshot holds every owner of its document, and loading it gives the same
scene and clock back.  The owners are stored in the order of the tree and the
lists, so an owner that a list names twice is stored twice, and then the
snapshot is refused.  Validation does not look for that among styles and tools.
-/

namespace MotionScene
namespace Document

variable {document : Document}

/-- The numbers in the order the owners are stored: first the listed ones, then
any others. -/
def order (document : Document) : List OwnerId :=
  document.scene.orderedIds ++
    document.scene.owners.ids.filter fun id => !(id ∈ document.scene.orderedIds)

theorem snapshot_owners :
    document.snapshot.owners = document.order.filterMap document.scene.owner? :=
  rfl

theorem mem_order_of_contains
    {id : OwnerId}
    (known : document.scene.contains id = true) :
    id ∈ document.order := by
  rw [order, List.mem_append, List.mem_filter]
  by_cases listed : id ∈ document.scene.orderedIds
  · exact Or.inl listed
  · exact Or.inr ⟨Scene.mem_ids_iff.2 known, by simpa using listed⟩

/-- A snapshot holds the owners of the document and no others. -/
theorem mem_snapshot_owners {owner : Owner} :
    owner ∈ document.snapshot.owners ↔
      document.scene.owner? owner.id = some owner := by
  rw [snapshot_owners, List.mem_filterMap]
  constructor
  · rintro ⟨id, _, found⟩
    rwa [document.scene.id_of_owner? found]
  · intro found
    exact ⟨owner.id,
      mem_order_of_contains (Option.isSome_of_eq_some found), found⟩

/-! ## What is stored twice -/

theorem map_id_filterMap_owner? (scene : Scene) (ids : List OwnerId) :
    (ids.filterMap scene.owner?).map Owner.id = ids.filter scene.contains := by
  induction ids with
  | nil => rfl
  | cons id rest inductionHypothesis =>
      cases found : scene.owner? id with
      | none =>
          rw [List.filterMap_cons_none found, inductionHypothesis,
            List.filter_cons_of_neg]
          simp [Scene.contains, found]
      | some owner =>
          rw [List.filterMap_cons_some found, List.map_cons,
            inductionHypothesis, scene.id_of_owner? found,
            List.filter_cons_of_pos]
          simp [Scene.contains, found]

/-- Where every owner stands where it belongs, there are none but the listed
ones. -/
theorem order_of_linked (linked : document.scene.Linked ∅) :
    document.order = document.scene.orderedIds := by
  have nothing : (document.scene.owners.ids.filter
      fun id => !(id ∈ document.scene.orderedIds)) = [] := by
    refine List.filter_eq_nil_iff.2 fun id known => ?_
    simpa using linked.mem_orderedIds_iff.2 (Scene.mem_ids_iff.1 known)
  rw [order, nothing, List.append_nil]

/-- In a valid document, an owner is stored twice if and only if a style or a
tool is listed twice. -/
theorem nodup_snapshot_iff (valid : document.scene.violations = []) :
    (document.snapshot.owners.map Owner.id).Nodup ↔
      document.scene.styles.Nodup ∧ document.scene.tools.Nodup := by
  have demands : document.scene.Demands :=
    Scene.tolerable_violations_iff.1 (valid ▸ Scene.tolerable_nil)
  rw [snapshot_owners, map_id_filterMap_owner?]
  constructor
  · intro nodup
    -- Styles and tools of a valid document exist, so none of their entries is
    -- skipped.
    have kept : ∀ list : List OwnerId, list.Sublist document.order →
        (∀ id ∈ list, document.scene.contains id = true) → list.Nodup := by
      intro list within known
      rw [← List.filter_eq_self.2 known]
      exact nodup.sublist (within.filter _)
    constructor
    · refine kept _ ?_ fun id member => ?_
      · rw [order, Scene.orderedIds, List.append_assoc, List.append_assoc]
        exact (List.sublist_append_left _ _).trans
          (List.sublist_append_right _ _)
      · exact Scene.contains_of_categoryOf (demands.styles id member)
    · refine kept _ ?_ fun id member => ?_
      · rw [order, Scene.orderedIds]
        exact (List.sublist_append_right _ _).trans
          (List.sublist_append_left _ _)
      · exact Scene.contains_of_categoryOf (demands.tools id member)
  · rintro ⟨styles, tools⟩
    have linked := demands.linked styles tools
    rw [order_of_linked linked]
    exact linked.nodup_orderedIds.filter _

/-! ## Loading what was saved -/

/-- Whatever the document is like, its snapshot describes its scene. -/
theorem scene_unchecked_snapshot (document : Document) (settings : Settings) :
    (unchecked document.snapshot settings).scene = document.scene := by
  -- An owner may be stored twice here, but then it is the same one both times.
  have agree : ∀ a ∈ document.snapshot.owners, ∀ b ∈ document.snapshot.owners,
      a.id = b.id → a = b := by
    intro a isA b isB same
    rw [mem_snapshot_owners] at isA isB
    rw [same, isB] at isA
    exact (Option.some.inj isA).symm
  refine Scene.ext_of_owners ?_ rfl rfl rfl ?_
  · refine fun id => Option.ext fun owner =>
      (Scene.owner?_foldl_insert_empty_iff agree).trans ?_
    constructor
    · rintro ⟨member, rfl⟩
      exact mem_snapshot_owners.1 member
    · intro found
      have same := document.scene.id_of_owner? found
      exact ⟨mem_snapshot_owners.2 (same.symm ▸ found), same⟩
  · refine Std.ExtTreeSet.ext_mem fun id => ?_
    change id ∈ Std.ExtTreeSet.ofList document.scene.selection.toList ↔ _
    rw [Std.ExtTreeSet.mem_ofList, List.contains_iff_mem,
      Std.ExtTreeSet.mem_toList]

/-- The owners of a snapshot are those of its document. -/
theorem forall_mem_snapshot_owners_iff {demand : OwnerId → Prop} :
    (∀ owner ∈ document.snapshot.owners, demand owner.id) ↔
      ∀ id, document.scene.contains id = true → demand id := by
  constructor
  · intro all id known
    obtain ⟨owner, found⟩ := Option.isSome_iff_exists.1 known
    have same := document.scene.id_of_owner? found
    have member := mem_snapshot_owners.2 (same.symm ▸ found)
    exact same ▸ all owner member
  · intro all owner member
    exact all owner.id (Option.isSome_iff_exists.2
      ⟨owner, mem_snapshot_owners.1 member⟩)

/-- A valid document is loaded from its snapshot if and only if no style or tool
is listed twice, and no owner has the last number. -/
theorem ofSnapshot_snapshot_iff
    (valid : document.scene.violations = [])
    {settings : Settings}
    {restored : Document} :
    ofSnapshot document.snapshot settings = .ok restored ↔
      (document.scene.styles.Nodup ∧ document.scene.tools.Nodup) ∧
        (∀ id, document.scene.contains id = true →
          id.number + 1 < OwnerId.limit) ∧
        restored = unchecked document.snapshot settings := by
  have room := @forall_mem_snapshot_owners_iff document fun id =>
    id.number + 1 < OwnerId.limit
  rw [ofSnapshot_eq_ok_iff, nodup_snapshot_iff valid, room,
    scene_unchecked_snapshot, valid]
  simp only [true_and]

/-- Saving and loading are inverse: a snapshot holds every owner of its document
once and nothing else, and a valid document without repetitions is loaded from
it as it was, unless an owner has the last number.  The next number that it
gives out is then greater than all numbers in use. -/
theorem restored_from_snapshot
    (valid : document.scene.violations = [])
    (styles : document.scene.styles.Nodup)
    (tools : document.scene.tools.Nodup)
    (settings : Settings) :
    (∀ owner, document.snapshot.owners.count owner =
        if document.scene.owner? owner.id = some owner then 1 else 0) ∧
      ((∀ id, document.scene.contains id = true →
          id.number + 1 < OwnerId.limit) →
        ∃ restored, ofSnapshot document.snapshot settings = .ok restored ∧
          restored.id = document.id ∧ restored.scene = document.scene ∧
          restored.clock = document.clock ∧
          (∀ id, document.scene.contains id = true →
            id.number < restored.nextId) ∧
          (restored.nextId + 1 < OwnerId.limit →
            ∃ after, restored.allocate = .ok (after, ⟨restored.nextId⟩))) := by
  have distinct := (nodup_snapshot_iff valid).2 ⟨styles, tools⟩
  have same := scene_unchecked_snapshot document settings
  constructor
  · intro owner
    rw [(List.Nodup.of_map _ distinct).count]
    simp only [mem_snapshot_owners]
  · intro room
    refine ⟨_, (ofSnapshot_snapshot_iff valid).2 ⟨⟨styles, tools⟩, room, rfl⟩,
      rfl, same, rfl, ?_, ?_⟩
    · have numbers := numbers_unchecked distinct settings
      rwa [same] at numbers
    · exact fun more => ⟨_, allocate_eq_ok_iff.2 ⟨more, rfl, rfl⟩⟩

/-- A tree with a tagged object, a style that the tag refers to, a tool and a
selection. -/
def stored : Snapshot where
  id := ⟨7⟩
  root := ⟨1⟩
  styles := [⟨4⟩]
  tools := [⟨2⟩]
  selection := [⟨3⟩]
  clock := .new {}
  owners := [
    { id := ⟨1⟩, kind := .object .empty, properties := [], children := [⟨3⟩] },
    { id := ⟨3⟩, kind := .object .ellipse, properties := [], parent := some ⟨1⟩,
      tags := [⟨5⟩] },
    { id := ⟨5⟩
      kind := .tag .style
      properties :=
      [{ Property.referring "style" [.style] with
        value := .reference (some ⟨4⟩) }]
      parent := some ⟨3⟩ },
    { id := ⟨4⟩, kind := .style, properties := [] },
    { id := ⟨2⟩, kind := .tool .select, properties := [] }]

theorem ofSnapshot_stored : ofSnapshot stored {} = .ok (unchecked stored {}) :=
  rfl

theorem violations_stored : (unchecked stored {}).scene.violations = [] :=
  (ofSnapshot_eq_ok_iff.1 ofSnapshot_stored).2.2.1

theorem restored_from_snapshot_stored :
    let document := unchecked stored {}
    document.snapshot.owners.map Owner.id = [⟨1⟩, ⟨3⟩, ⟨5⟩, ⟨4⟩, ⟨2⟩] ∧
      (∀ owner, document.snapshot.owners.count owner =
        if document.scene.owner? owner.id = some owner then 1 else 0) ∧
      ∃ restored, ofSnapshot document.snapshot {} = .ok restored ∧
        restored.id = document.id ∧ restored.scene = document.scene ∧
        restored.clock = document.clock ∧
        (∀ id, document.scene.contains id = true →
          id.number < restored.nextId) ∧
        (restored.nextId + 1 < OwnerId.limit →
          ∃ after, restored.allocate = .ok (after, ⟨restored.nextId⟩)) := by
  have spec := @restored_from_snapshot _ violations_stored
    (List.nodup_singleton _) (List.nodup_singleton _) {}
  have room : ∀ owner ∈ (unchecked stored {}).snapshot.owners,
      owner.id.number + 1 < OwnerId.limit := by decide
  exact ⟨rfl, spec.1, spec.2 (forall_mem_snapshot_owners_iff.1 room)⟩

/-! ## Loading again -/

/-- A loaded document is described by its own snapshot, down to the next
number. -/
theorem unchecked_snapshot_unchecked
    {snapshot : Snapshot}
    (distinct : (snapshot.owners.map Owner.id).Nodup)
    (settings : Settings) :
    unchecked (unchecked snapshot settings).snapshot settings =
      unchecked snapshot settings := by
  have scenes := scene_unchecked_snapshot (unchecked snapshot settings) settings
  have agree := List.inj_on_of_nodup_map distinct
  have members : ∀ owner,
      owner ∈ (unchecked snapshot settings).snapshot.owners ↔
        owner ∈ snapshot.owners := by
    intro owner
    refine mem_snapshot_owners.trans
      ((Scene.owner?_foldl_insert_empty_iff fun a isA b isB => agree isA
        isB).trans ?_)
    exact and_iff_left rfl
  have numbers :
      (unchecked (unchecked snapshot settings).snapshot settings).nextId =
      (unchecked snapshot settings).nextId := by
    -- The order of the owners may differ, so the two folds are compared by
    -- their bounds.
    refine eq_of_forall_ge_iff fun bound => ?_
    refine nextId_holding_le_iff.trans (Iff.trans ?_ nextId_holding_le_iff.symm)
    simp only [members]
    rfl
  exact congrArg₂
    (fun scene nextId => { unchecked snapshot settings with scene, nextId })
    scenes numbers

/-- What was loaded can be saved and loaded again if and only if no style or
tool was listed twice, and then it is the same document. -/
theorem loaded_again_iff
    {snapshot : Snapshot}
    {settings : Settings}
    {document reloaded : Document}
    (loaded : ofSnapshot snapshot settings = .ok document) :
    ofSnapshot document.snapshot settings = .ok reloaded ↔
      (snapshot.styles.Nodup ∧ snapshot.tools.Nodup) ∧ reloaded = document := by
  obtain ⟨distinct, room, valid, rfl⟩ := ofSnapshot_eq_ok_iff.1 loaded
  have known : ∀ id, (unchecked snapshot settings).scene.contains id = true →
      id.number + 1 < OwnerId.limit := by
    intro id isKnown
    obtain ⟨owner, member, rfl⟩ := mem_of_contains_unchecked distinct isKnown
    exact room owner member
  rw [ofSnapshot_snapshot_iff valid, unchecked_snapshot_unchecked distinct,
    and_iff_right known]
  rfl

theorem loaded_again_stored :
    ofSnapshot stored {} = .ok (unchecked stored {}) ∧
      ofSnapshot (unchecked stored {}).snapshot {} =
        .ok (unchecked stored {}) := by
  refine ⟨ofSnapshot_stored, (loaded_again_iff ofSnapshot_stored).2 ⟨?_, rfl⟩⟩
  exact ⟨List.nodup_singleton _, List.nodup_singleton _⟩

/-- The stored document with its style listed twice. -/
def storedTwice : Snapshot :=
  { stored with styles := stored.styles ++ stored.styles }

/-- A document that lists a style twice is loaded, and refused once it was
saved. -/
theorem not_loaded_again_storedTwice :
    ∃ document, ofSnapshot storedTwice {} = .ok document ∧
      ofSnapshot document.snapshot {} =
        .error [.invalid "duplicate owner #4"] :=
  ⟨_, rfl, rfl⟩

end Document
end MotionScene
