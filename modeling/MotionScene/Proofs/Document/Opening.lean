import MotionScene.Document.Snapshot
import MotionScene.Proofs.Command.Lawful
import MotionScene.Proofs.Owner.Making

/-!
# Documents as they are opened

A new document is well-formed, whatever the settings.  So is a loaded one, if
its lists and the names of its properties repeat nothing: loading checks the
rest, and the numbers of loaded owners are never given out again.
-/

namespace MotionScene
namespace Document

/-! ## New documents -/

/-- The root of a new document. -/
def newRoot (settings : Settings) : Owner :=
  (Owner.ofKind ⟨1⟩ (.object .empty) settings.paths).withName "root"

/-- The tool of a new document. -/
def newTool (settings : Settings) : Owner :=
  Owner.ofKind ⟨2⟩ (.tool .select) settings.paths

section New

variable (id : DocumentId) (settings : Settings)

theorem owner?_new (owner : OwnerId) :
    (new id settings).scene.owner? owner =
      if (⟨2⟩ : OwnerId) = owner then some (newTool settings)
      else if (⟨1⟩ : OwnerId) = owner then some (newRoot settings)
      else none := by
  have registered : (new id settings).scene.owner? owner =
      ((Scene.empty.insert (newRoot settings)).insert (newTool settings)).owner?
        owner := rfl
  rw [registered, Scene.owner?_insert, Scene.owner?_insert]
  rfl

theorem newRoot_silent :
    ∀ property ∈ (newRoot settings).properties,
      property.value.target? = none := by
  simp [newRoot, Owner.withName, Owner.modifyProperty, Owner.ofKind, Owner.new,
    Owner.defaultProperties, Owner.commonProperties, Owner.shapeProperties,
    Owner.changeFirst, Property.ofValue, Value.target?]

/-- The owners of a new document are its root and its tool, as they were
made. -/
theorem cases_new
    {owner : OwnerId}
    {found : Owner}
    (known : (new id settings).scene.owner? owner = some found) :
    (owner = ⟨2⟩ ∧ found = newTool settings) ∨
      (owner = ⟨1⟩ ∧ found = newRoot settings) := by
  rw [owner?_new] at known
  split at known
  · next same => exact Or.inl ⟨same.symm, (Option.some.inj known).symm⟩
  · split at known
    · next same => exact Or.inr ⟨same.symm, (Option.some.inj known).symm⟩
    · cases known

theorem pristine_new
    {owner : OwnerId}
    {found : Owner}
    (known : (new id settings).scene.owner? owner = some found) :
    found.Pristine ∧ ∀ property ∈ found.properties,
      property.value.target? = none := by
  rcases cases_new id settings known with ⟨_, rfl⟩ | ⟨_, rfl⟩
  · refine ⟨Owner.ofKind_pristine _ _ _, ?_⟩
    exact fun property member =>
      (Owner.pristine_of_default
        (.tool .select) settings.paths property member).2
  · exact ⟨(Owner.ofKind_pristine _ _ _).withName "root",
      newRoot_silent settings⟩

theorem parentOf_new (owner : OwnerId) :
    (new id settings).scene.parentOf owner = none := by
  cases known : (new id settings).scene.owner? owner with
  | none => simp [Scene.parentOf, known]
  | some found =>
      rw [Scene.parentOf, known,
        Option.bind_some, ← (pristine_new id settings known).1.unlinked]
      rfl

theorem entries_new {place : Place} (differs : place ≠ .tools) :
    (new id settings).scene.entries place = [] := by
  cases place with
  | children host | tags host =>
      cases known : (new id settings).scene.owner? host with
      | none => simp [Scene.entries, known]
      | some found =>
          rw [Scene.entries, known, Option.map_some,
            ← (pristine_new id settings known).1.unlinked]
          rfl
  | styles => rfl
  | tools => exact absurd rfl differs

theorem categoryOf_new (owner : OwnerId) :
    (new id settings).scene.categoryOf owner =
      if (⟨2⟩ : OwnerId) = owner then some .tool
      else if (⟨1⟩ : OwnerId) = owner then some .object else none := by
  rw [Scene.categoryOf, owner?_new]
  split
  · rfl
  · split <;> rfl

theorem linked_new : (new id settings).scene.Linked ∅ := by
  constructor
  case root_category => exact categoryOf_new id settings ⟨1⟩
  case root_parent => exact parentOf_new id settings _
  case root_fixed => exact Set.notMem_empty _
  case nodup =>
    intro place
    by_cases isTools : place = .tools
    · subst isTools
      exact List.nodup_singleton _
    · rw [entries_new id settings isTools]
      exact List.nodup_nil
  case listed =>
    intro place owner
    simp only [Set.mem_empty_iff_false, not_false_eq_true, and_true,
      Scene.home?_eq_some_iff, parentOf_new]
    cases place with
    | tools =>
        have tools : (new id settings).scene.entries .tools = [⟨2⟩] := rfl
        rw [tools, categoryOf_new, List.mem_singleton]
        by_cases isTool : (⟨2⟩ : OwnerId) = owner
        · subst isTool
          simp [Place.category, Place.host?]
        · simp only [if_neg isTool, Ne.symm isTool, false_iff, not_and]
          split <;> simp [Place.category]
    | styles =>
        rw [entries_new id settings (by simp), categoryOf_new]
        simp only [List.not_mem_nil, false_iff, not_and]
        split
        · simp [Place.category]
        · split <;> simp [Place.category]
    | children host | tags host =>
        rw [entries_new id settings (by simp)]
        simp [Place.host?]
  case host_category =>
    intro owner parent step
    rw [parentOf_new] at step
    cases step
  case child_category =>
    intro owner parent step
    rw [parentOf_new] at step
    cases step
  case loose_parent => exact fun _ _ => parentOf_new id settings _
  case loose_known =>
    exact fun owner isLoose => absurd isLoose (Set.notMem_empty owner)
  case rooted =>
    intro owner category
    refine ⟨owner, .refl _ owner, Or.inl ?_⟩
    rw [categoryOf_new] at category
    split at category
    · rcases category with category | category <;> cases category
    · split at category
      · next isRoot => exact isRoot.symm
      · rcases category with category | category <;> cases category

theorem sound_new : (new id settings).scene.Sound := by
  constructor
  · intro owner content found
    obtain ⟨original, known, rfl⟩ := Scene.content?_eq_some_iff.1 found
    exact (pristine_new id settings known).1.sound.congr rfl
  · intro owner content found property member target refers
    obtain ⟨original, known, rfl⟩ := Scene.content?_eq_some_iff.1 found
    rw [(pristine_new id settings known).2 property member] at refers
    cases refers
  · intro owner isSelected
    have nothing : (new id settings).scene.selection = ∅ := rfl
    rw [nothing] at isSelected
    exact absurd isSelected Std.ExtTreeSet.not_mem_empty

/-- A new document is well-formed, whatever the settings. -/
theorem wellFormed_new : (new id settings).WellFormed := by
  refine ⟨Scene.wellFormed_iff.2
    ⟨linked_new id settings, sound_new id settings⟩, ?_⟩
  intro owner known
  obtain ⟨found, isFound⟩ := Option.isSome_iff_exists.1 known
  have next : (new id settings).nextId = 3 := rfl
  rcases cases_new id settings isFound with ⟨rfl, _⟩ | ⟨rfl, _⟩ <;> simp [next]

end New

/-! ## Loaded documents -/

/-- A document with owners registered and their numbers reserved. -/
def holding (document : Document) (owners : List Owner) : Document :=
  { document with
    scene := owners.foldl Scene.insert document.scene
    nextId := owners.foldl
      (fun next owner => Nat.max next (owner.id.number + 1)) document.nextId }

/-- The next owner is registered if there is a number after its own, and its own
is not in use. -/
theorem register_cons_eq_ok_iff
    {document registered : Document}
    {owner : Owner}
    {rest : List Owner} :
    document.register (owner :: rest) = .ok registered ↔
      owner.id.number + 1 < OwnerId.limit ∧
        document.scene.contains owner.id = false ∧
        { document.above owner.id with
          scene := document.scene.insert owner }.register rest =
            .ok registered := by
  rw [register, Attempt.bind_eq_ok_iff]
  constructor
  · rintro ⟨reserved, isReserved, done⟩
    obtain ⟨room, rfl⟩ := reserve_eq_ok_iff.1 isReserved
    split at done
    · cases done
    · next unused => exact ⟨room, by simpa using unused, done⟩
  · rintro ⟨room, unused, done⟩
    refine ⟨_, reserve_eq_ok_iff.2 ⟨room, rfl⟩, ?_⟩
    rw [if_neg (by simpa using unused)]
    exact done

/-- Owners are registered unless a number comes twice, is in use or is the
last. -/
theorem register_eq_ok_iff
    {document registered : Document}
    {owners : List Owner} :
    document.register owners = .ok registered ↔
      (owners.map Owner.id).Nodup ∧
        (∀ owner ∈ owners, owner.id.number + 1 < OwnerId.limit ∧
          document.scene.contains owner.id = false) ∧
        registered = document.holding owners := by
  induction owners generalizing document with
  | nil =>
      constructor
      · rintro ⟨⟩
        exact ⟨List.nodup_nil, List.forall_mem_nil _, rfl⟩
      · rintro ⟨_, _, rfl⟩
        rfl
  | cons owner rest inductionHypothesis =>
      have contains : ∀ id, (document.scene.insert owner).contains id = false ↔
          owner.id ≠ id ∧ document.scene.contains id = false := by
        intro id
        rw [Scene.contains, Scene.owner?_insert]
        split <;> simp [*, Scene.contains]
      simp only [register_cons_eq_ok_iff, inductionHypothesis, contains,
        List.map_cons, List.nodup_cons, List.forall_mem_cons, List.mem_map,
        not_exists, not_and]
      constructor
      · rintro ⟨room, unused, nodup, apart, rfl⟩
        exact ⟨⟨fun other member same =>
          (apart other member).2.1 same.symm, nodup⟩,
          ⟨⟨room, unused⟩, fun other member =>
            ⟨(apart other member).1, (apart other member).2.2⟩⟩, rfl⟩
      · rintro ⟨⟨differs, nodup⟩, ⟨⟨room, unused⟩, others⟩, rfl⟩
        exact ⟨room, unused, nodup, fun other member =>
          ⟨(others other member).1, fun same => differs other member same.symm,
            (others other member).2⟩, rfl⟩

/-- No number up to those of the owners is given out any more, and no more are
reserved than that. -/
theorem nextId_holding_le_iff
    {document : Document}
    {owners : List Owner}
    {bound : Nat} :
    (document.holding owners).nextId ≤ bound ↔
      document.nextId ≤ bound ∧ ∀ owner ∈ owners, owner.id.number < bound := by
  simp only [holding]
  generalize document.nextId = next
  induction owners generalizing next with
  | nil => simp
  | cons owner rest inductionHypothesis =>
      rw [List.foldl_cons, inductionHypothesis, Nat.max_le,
        List.forall_mem_cons, and_assoc, Nat.succ_le_iff]

/-- The document of a snapshot before it is checked. -/
def unchecked (snapshot : Snapshot) (settings : Settings) : Document :=
  let document := (empty snapshot.id settings).holding snapshot.owners
  { document with
    scene := { document.scene with
      root := snapshot.root
      styles := snapshot.styles
      tools := snapshot.tools
      selection := Std.ExtTreeSet.ofList snapshot.selection }
    clock := snapshot.clock }

/-- A snapshot is loaded if no number comes twice or is the last, and nothing is
wrong with its scene. -/
theorem ofSnapshot_eq_ok_iff
    {snapshot : Snapshot}
    {settings : Settings}
    {document : Document} :
    ofSnapshot snapshot settings = .ok document ↔
      (snapshot.owners.map Owner.id).Nodup ∧
        (∀ owner ∈ snapshot.owners, owner.id.number + 1 < OwnerId.limit) ∧
        (unchecked snapshot settings).scene.violations = [] ∧
        document = unchecked snapshot settings := by
  have absent : ∀ owner ∈ snapshot.owners,
      (empty snapshot.id settings).scene.contains owner.id = false :=
    fun _ _ => by simp [empty, Scene.contains, Scene.owner?, Scene.empty]
  rw [ofSnapshot]
  cases isRegistered :
    (empty snapshot.id settings).register snapshot.owners with
  | error fault =>
      constructor
      · rintro ⟨⟩
      · rintro ⟨distinct, room, _, _⟩
        cases isRegistered.symm.trans (register_eq_ok_iff.2 ⟨distinct,
          fun owner member => ⟨room owner member, absent owner member⟩, rfl⟩)
  | ok registered =>
      obtain ⟨distinct, accepted, rfl⟩ := register_eq_ok_iff.1 isRegistered
      have room := fun owner member => (accepted owner member).1
      simp only
      split
      · next valid =>
        have clean :
            (unchecked snapshot settings).scene.violations = [] := valid
        change Except.ok (unchecked snapshot settings) = .ok document ↔ _
        simp only [Except.ok.injEq, distinct, clean, true_and, eq_comm]
        exact ⟨fun same => ⟨room, same⟩, fun both => both.2⟩
      · next invalid =>
        have faulty :
            (unchecked snapshot settings).scene.violations ≠ [] := invalid
        simp [faulty]

/-- The owners of a loaded scene are those of the snapshot. -/
theorem mem_of_contains_unchecked
    {snapshot : Snapshot}
    (distinct : (snapshot.owners.map Owner.id).Nodup)
    {settings : Settings}
    {id : OwnerId}
    (known : (unchecked snapshot settings).scene.contains id = true) :
    ∃ owner ∈ snapshot.owners, owner.id = id := by
  obtain ⟨owner, found⟩ := Option.isSome_iff_exists.1 known
  have agree := List.inj_on_of_nodup_map distinct
  exact ⟨owner, (Scene.owner?_foldl_insert_empty_iff
    (fun a isA b isB => agree isA isB)).1 found⟩

/-- The numbers of loaded owners are never given out again. -/
theorem numbers_unchecked
    {snapshot : Snapshot}
    (distinct : (snapshot.owners.map Owner.id).Nodup)
    (settings : Settings) :
    ∀ id, (unchecked snapshot settings).scene.contains id = true →
      id.number < (unchecked snapshot settings).nextId := by
  intro id known
  obtain ⟨owner, member, rfl⟩ := mem_of_contains_unchecked distinct known
  exact (nextId_holding_le_iff.1 (Nat.le_refl _)).2 owner member

/-- A loaded document is well-formed if its lists and the names of its
properties repeat nothing. -/
theorem wellFormed_ofSnapshot
    {snapshot : Snapshot}
    {settings : Settings}
    {document : Document}
    (loaded : ofSnapshot snapshot settings = .ok document)
    (styles : document.scene.styles.Nodup)
    (tools : document.scene.tools.Nodup)
    (names : ∀ id owner, document.scene.owner? id = some owner →
      (owner.properties.map Property.name).Nodup) :
    document.WellFormed := by
  obtain ⟨distinct, _, clean, rfl⟩ := ofSnapshot_eq_ok_iff.1 loaded
  refine ⟨⟨?_, styles, tools, names⟩, numbers_unchecked distinct settings⟩
  rw [clean]
  exact Scene.tolerable_nil

end Document
end MotionScene
