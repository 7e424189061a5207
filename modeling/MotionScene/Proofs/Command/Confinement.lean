import MotionScene.Proofs.Command.Assignment
import MotionScene.Proofs.Document.Opening
import MotionScene.Proofs.Json.Finiteness
import MotionScene.Proofs.Scene.Numbering

/-!
# Assigned values stay within their ranges

Validation reports a value out of range where, and only where, a property
refuses its own value.  An assignment stores what the property makes of a value,
so it adds no such report.
-/

namespace MotionScene

/-! ## What is reported out of range -/

namespace Property

/-- The property refuses its own value. -/
def Refuses (property : Property) (fault : Fault) : Prop :=
  property.value.kind = property.kind ∧
    property.checkRange property.value = .error fault

end Property

namespace Scene

variable {scene : Scene} {fault : Fault}

/-- No value out of range is reported. -/
def Silent (faults : List Fault) : Prop :=
  ∀ fault ∈ faults, fault.isRange = false

theorem Silent.not_mem
    {faults : List Fault}
    (silent : Silent faults)
    (isRange : fault.isRange = true) :
    fault ∉ faults := by
  intro member
  rw [silent fault member] at isRange
  cases isRange

@[simp] theorem silent_nil : Silent [] :=
  nofun

@[simp] theorem silent_singleton : Silent [fault] ↔ fault.isRange = false := by
  simp [Silent]

@[simp] theorem silent_append {first second : List Fault} :
    Silent (first ++ second) ↔ Silent first ∧ Silent second :=
  List.forall_mem_append

theorem silent_flatMap {α : Type} {items : List α} {check : α → List Fault}
    (silent : ∀ item, Silent (check item)) : Silent (items.flatMap check) := by
  intro fault member
  obtain ⟨item, _, reported⟩ := List.mem_flatMap.1 member
  exact silent item fault reported

theorem silent_require {holds : Bool} (grave : fault.isRange = false) :
    Silent (require holds fault) := by
  cases holds
  · exact silent_singleton.2 grave
  · exact silent_nil

@[simp] theorem silent_requireValid {holds : Bool} {detail : String} :
    Silent (requireValid holds detail) :=
  silent_require rfl

theorem silent_checkRoot : Silent scene.checkRoot := by
  unfold checkRoot
  split
  · exact silent_requireValid
  · exact silent_singleton.2 rfl

theorem silent_checkLink
    {sort : String}
    {fits : OwnerKind → Bool}
    {holder id : OwnerId} :
    Silent (scene.checkLink sort fits holder id) := by
  unfold checkLink
  split
  · exact silent_requireValid
  · exact silent_singleton.2 rfl

theorem silent_checkLinks {owner : Owner} :
    Silent (scene.checkLinks owner) := by
  have silentParent : Silent (scene.checkParent owner) := by
    unfold checkParent
    split
    · exact silent_requireValid
    · exact silent_nil
  simp [checkLinks, silentParent, silent_flatMap fun _ => silent_checkLink]

theorem silent_checkPlace {reachable : List OwnerId} {owner : Owner} :
    Silent (scene.checkPlace reachable owner) := by
  unfold checkPlace
  split <;> exact silent_requireValid

theorem silent_checkSelection : Silent scene.checkSelection := by
  unfold checkSelection
  split
  · exact silent_singleton.2 rfl
  · exact silent_nil

theorem silent_checkReference {property : Property} :
    Silent (scene.checkReference property) := by
  unfold checkReference
  split
  · split
    · exact silent_require rfl
    · exact silent_nil
  · exact silent_nil

theorem silent_violation_check {track : Track} {keyframe : Keyframe} :
    Silent (violation (track.check keyframe)) := by
  unfold Track.check
  split
  · exact silent_singleton.2 rfl
  · dsimp only
    split
    · split
      · exact silent_singleton.2 rfl
      · exact silent_nil
    · exact silent_nil

theorem silent_checkTrack
    {owner : OwnerId}
    {property : Property}
    {track : Track} :
    Silent (checkTrack owner property track) := by
  have kind : Silent
      (require property.kind.isAnimatable (.notAnimatable property.kind)) :=
    silent_require rfl
  simp [checkTrack, kind, silent_flatMap fun _ => silent_violation_check]

theorem mem_checkProperty_iff
    (isRange : fault.isRange = true)
    {owner : OwnerId}
    {property : Property} :
    fault ∈ scene.checkProperty owner property ↔ property.Refuses fault := by
  have silentTrack :
      Silent ((property.track.map (checkTrack owner property)).getD []) := by
    cases property.track with
    | none => exact silent_nil
    | some track => exact silent_checkTrack
  unfold checkProperty Property.Refuses
  split
  · next same =>
    rw [List.mem_append, List.mem_append,
      or_iff_left (silentTrack.not_mem isRange),
      or_iff_left (silent_checkReference.not_mem isRange), and_iff_right same]
    cases property.checkRange property.value with
    | ok _ => simp [violation]
    | error other => simp [violation, eq_comm]
  · next differs =>
    exact iff_of_false ((silent_singleton.2 rfl : Silent _).not_mem isRange)
      fun refuses =>
        differs refuses.1

/-- Reports of values out of range are those of the properties that refuse their
values. -/
theorem mem_violations_iff (isRange : fault.isRange = true) :
    fault ∈ scene.violations ↔
      ∃ id owner property,
        scene.owner? id = some owner ∧ property ∈ owner.properties ∧
        property.Refuses fault := by
  have silentDangling : Silent scene.checkDangling := silent_require rfl
  have silentTools : Silent scene.checkTools :=
    silent_flatMap fun _ => silent_requireValid
  have silentStyles : Silent scene.checkStyles :=
    silent_flatMap fun _ => silent_requireValid
  have silentOwnership : Silent scene.checkOwnership :=
    silent_flatMap fun _ => silent_requireValid
  rw [violations]
  simp only [List.mem_append]
  rw [or_iff_left (silent_checkSelection.not_mem isRange),
    or_iff_left (silentDangling.not_mem isRange),
    or_iff_left (silentTools.not_mem isRange),
    or_iff_left (silentStyles.not_mem isRange),
    or_iff_left ((silent_flatMap fun _ => silent_checkPlace).not_mem isRange),
    or_iff_left (silentOwnership.not_mem isRange),
    or_iff_right (silent_checkRoot.not_mem isRange)]
  simp only [List.mem_flatMap, List.mem_append,
    silent_checkLinks.not_mem isRange, false_or, mem_checkProperty_iff isRange]
  constructor
  · rintro ⟨owner, listed, property, member, refuses⟩
    exact ⟨owner.id, owner, property, mem_toList_iff.1 listed, member, refuses⟩
  · rintro ⟨id, owner, property, found, member, refuses⟩
    refine ⟨owner, mem_toList_iff.2 ?_, property, member, refuses⟩
    rwa [scene.id_of_owner? found]

/-- After one property is put in place of another, every property is that one or
was there. -/
theorem mem_or_eq_of_withProperty
    {address : PropertyAddress}
    {replacement : Property}
    {id : OwnerId}
    {owner : Owner}
    (found : (scene.withProperty address replacement).owner? id = some owner)
    {property : Property}
    (member : property ∈ owner.properties) :
    (∃ before, scene.owner? id = some before ∧ property ∈ before.properties) ∨
      address.owner = id ∧ property = replacement := by
  rw [owner?_withProperty] at found
  split at found
  · next same =>
    obtain ⟨before, known, rfl⟩ := Option.map_eq_some_iff.1 found
    rcases Owner.mem_or_eq_of_mem_changeFirst member with isNew | kept
    · exact Or.inr ⟨same, isNew⟩
    · exact Or.inl ⟨before, known, kept⟩
  · exact Or.inl ⟨owner, found, member⟩

end Scene

namespace SetProperty

variable {scene final : Scene} {name : String} {items : List (OwnerId × Value)}
  {result : Except Fault Unit}

/-- After values are stored, every property is one that was there or the one of
the name with one of the values. -/
theorem mem_storeAll
    (stored : storeAll scene name items = (final, result))
    {id : OwnerId}
    {owner : Owner}
    (found : final.owner? id = some owner)
    {property : Property}
    (member : property ∈ owner.properties) :
    (∃ before, scene.owner? id = some before ∧ property ∈ before.properties) ∨
      ∃ before value, scene.property ⟨id, name⟩ = .ok before ∧
        (id, value) ∈ items ∧ property = { before with value } := by
  induction items generalizing scene with
  | nil =>
      cases stored
      exact Or.inl ⟨owner, found, member⟩
  | cons item rest inductionHypothesis =>
      obtain ⟨first, value⟩ := item
      rw [storeAll] at stored
      cases outcome : scene.store first name value with
      | error fault =>
          rw [outcome] at stored
          cases stored
          exact Or.inl ⟨owner, found, member⟩
      | ok middle =>
          rw [outcome] at stored
          obtain ⟨before, known, rfl⟩ := Scene.store_eq_ok_iff.1 outcome
          have named : before.name = name := Scene.name_of_property known
          rcases inductionHypothesis stored with
            ⟨between, known', kept⟩ | ⟨between, later, known', among, rfl⟩
          · refine (Scene.mem_or_eq_of_withProperty known' kept).imp_right ?_
            rintro ⟨rfl, rfl⟩
            exact ⟨before, value, known, List.mem_cons_self, rfl⟩
          · by_cases same : first = id
            · subst same
              rw [Scene.property_withProperty { before with value } named known,
                Except.ok.injEq] at known'
              subst known'
              exact Or.inr
                ⟨before, later, known, List.mem_cons_of_mem _ among, rfl⟩
            · rw [Scene.property_withProperty_of_ne { before with value } named
                (by simpa using Ne.symm same)] at known'
              exact Or.inr
                ⟨between, later, known', List.mem_cons_of_mem _ among, rfl⟩

/-- The property with what it makes of a value. -/
def assigned (value : Value) (property : Property) : Property :=
  { property with value := property.constrain value }

/-- After values are stored, a property has the value its owner was planned to
get, if any. -/
theorem property_storeAll
    {value : Value}
    (stored : storeAll scene name items = (final, .ok ()))
    (planned : ∀ item ∈ items, ∃ property,
      scene.property ⟨item.1, name⟩ = .ok property ∧
      item.2 = property.constrain value)
    (id : OwnerId) :
    final.property ⟨id, name⟩ =
      if id ∈ items.map Prod.fst then
        (scene.property ⟨id, name⟩).map (assigned value)
      else scene.property ⟨id, name⟩ := by
  induction items generalizing scene with
  | nil =>
      cases stored
      rfl
  | cons item rest inductionHypothesis =>
      obtain ⟨first, given⟩ := item
      obtain ⟨before, known, rfl⟩ := planned _ List.mem_cons_self
      have named : (assigned value before).name = name :=
        Scene.name_of_property known
      have next : ∀ other,
          (scene.withProperty ⟨first, name⟩ (assigned value before)).property
          ⟨other, name⟩ = if other = first then .ok (assigned value before)
            else scene.property ⟨other, name⟩ := by
        intro other
        split
        · next same =>
          rw [same]
          exact Scene.property_withProperty (assigned value before) named known
        · next differs =>
          exact Scene.property_withProperty_of_ne (assigned value before) named
            (by simpa using differs)
      have outcome : scene.store first name (before.constrain value) =
          .ok (scene.withProperty ⟨first, name⟩ (assigned value before)) :=
        Scene.store_eq_ok_iff.2 ⟨before, known, rfl⟩
      rw [storeAll, outcome] at stored
      -- a property keeps its constraints, so the rest of the plan is what it
      -- would be now
      have plannedRest : ∀ item ∈ rest, ∃ property,
          (scene.withProperty ⟨first, name⟩ (assigned value before)).property
              ⟨item.1, name⟩ = .ok property ∧
            item.2 = property.constrain value := by
        intro item member
        obtain ⟨property, found, isValue⟩ :=
          planned item (List.mem_cons_of_mem _ member)
        rw [next]
        split
        · next same =>
          rw [same, known, Except.ok.injEq] at found
          exact ⟨_, rfl, found ▸ isValue⟩
        · exact ⟨property, found, isValue⟩
      rw [inductionHypothesis stored plannedRest, next]
      simp only [List.map_cons, List.mem_cons]
      by_cases same : id = first
      · subst same
        simp only [known, true_or, if_true]
        split <;> rfl
      · simp only [same, false_or, if_false]

variable {command : SetProperty} {document : Document}

/-- What is planned for an owner is what its property makes of the value. -/
theorem coerced_of_prepare
    {plan : List (OwnerId × Value × Value)}
    (prepared : command.prepare scene = .ok plan)
    {item : OwnerId × Value × Value}
    (member : item ∈ plan) :
    item.1 ∈ command.targets ∧ ∃ property,
      scene.property ⟨item.1, command.property⟩ = .ok property ∧
        property.coerce command.value = .ok item.2.2 := by
  obtain ⟨target, isTarget, made⟩ := Attempt.exists_of_mem_mapM prepared member
  unfold prepareOne at made
  obtain ⟨property, found, made⟩ := Attempt.bind_eq_ok_iff.1 made
  obtain ⟨value, coerced, made⟩ := Attempt.bind_eq_ok_iff.1 made
  obtain ⟨_, _, same⟩ := Attempt.bind_eq_ok_iff.1 made
  cases same
  exact ⟨isTarget, property, found, coerced⟩

/-- An assignment of a value without NaN, or within bounds in the right order,
makes validation report no value out of range that it did not report before. -/
theorem mem_violations_of_apply
    (regular : ∀ owner ∈ command.targets, ∀ property,
      document.scene.property ⟨owner, command.property⟩ = .ok property →
      property.constraints.HasFiniteBounds ∧
        ¬ (command.value.hasNaN = true ∧ property.constraints.Inverted))
    {fault : Fault}
    (isRange : fault.isRange = true)
    (reported : fault ∈ (command.apply document).state.scene.violations) :
    fault ∈ document.scene.violations := by
  rw [apply] at reported
  cases prepared : command.prepare document.scene with
  | error fault =>
      rw [prepared] at reported
      exact reported
  | ok plan =>
      simp only [prepared] at reported
      split at reported
      · exact reported
      · rw [Scene.mem_violations_iff isRange] at reported ⊢
        obtain ⟨id, owner, property, found, member, refuses⟩ := reported
        rcases mem_storeAll rfl found member with ⟨before, known, kept⟩ |
            ⟨before, value, known, among, rfl⟩
        · exact ⟨id, before, property, known, kept, refuses⟩
        · obtain ⟨item, planned, same⟩ := List.mem_map.1 among
          obtain ⟨isTarget, property, isProperty, coerced⟩ :=
            coerced_of_prepare prepared planned
          cases same
          rw [isProperty, Except.ok.injEq] at known
          subst known
          obtain ⟨finite, apart⟩ := regular item.1 isTarget property isProperty
          have accepted :=
            (Property.checkRange_of_coerce_iff finite coerced).2 apart
          cases refuses.2.symm.trans accepted

/-- After an assignment that changed something, every owner it was for has what
its property makes of the value. -/
theorem property_apply
    (changed : (command.apply document).result = .ok .changed)
    {owner : OwnerId}
    (isTarget : owner ∈ command.targets) :
    ∃ property, document.scene.property ⟨owner, command.property⟩ =
      .ok property ∧ command.value.kind = property.kind ∧
      (command.apply document).state.scene.property ⟨owner, command.property⟩ =
        .ok (assigned command.value property) := by
  rw [apply] at changed ⊢
  cases prepared : command.prepare document.scene with
  | error fault =>
      rw [prepared] at changed
      cases changed
  | ok plan =>
      simp only [prepared] at changed ⊢
      split at changed
      · cases changed
      · next differs =>
        rw [if_neg differs]
        have planned : ∀ item ∈ plan.map fun item =>
            (item.1, item.2.2), ∃ property,
            document.scene.property ⟨item.1, command.property⟩ = .ok property ∧
              item.2 = property.constrain command.value := by
          intro pair member
          obtain ⟨item, among, rfl⟩ := List.mem_map.1 member
          obtain ⟨_, property, found, coerced⟩ :=
            coerced_of_prepare prepared among
          exact ⟨property, found, (Property.coerce_eq_ok_iff.1 coerced).2.symm⟩
        have owners : (plan.map fun item => (item.1, item.2.2)).map Prod.fst =
            command.targets := by
          rw [← (planned_of_prepare prepared).1, List.map_map]
          rfl
        obtain ⟨item, among, isItem⟩ : ∃ item ∈ plan, item.1 = owner := by
          rwa [← (planned_of_prepare prepared).1, List.mem_map] at isTarget
        obtain ⟨_, property, found, coerced⟩ :=
          coerced_of_prepare prepared among
        rw [isItem] at found
        refine ⟨property, found, (Property.coerce_eq_ok_iff.1 coerced).1, ?_⟩
        cases stored : storeAll document.scene command.property
            (plan.map fun item => (item.1, item.2.2)) with
        | mk final result =>
            simp only [stored] at changed ⊢
            cases result with
            | error fault => cases changed
            | ok _ =>
                rw [property_storeAll stored planned, owners,
                  if_pos isTarget, found]
                rfl

end SetProperty

/-! ## Opened documents -/

/-- The bounds of every property of a document opened from a text are finite. -/
theorem Document.hasFiniteBounds_of_opened
    {text : String}
    {snapshot : Snapshot}
    {settings : Settings}
    {document : Document}
    (read : Snapshot.ofText? text = some snapshot)
    (opened : ofSnapshot snapshot settings = .ok document)
    {address : PropertyAddress}
    {property : Property}
    (found : document.scene.property address = .ok property) :
    property.constraints.HasFiniteBounds := by
  obtain ⟨distinct, _, _, rfl⟩ := ofSnapshot_eq_ok_iff.1 opened
  obtain ⟨owner, isOwner, named⟩ := Scene.property_eq_ok_iff.1 found
  have agree := List.inj_on_of_nodup_map distinct
  obtain ⟨member, _⟩ :=
    (Scene.owner?_foldl_insert_empty_iff
      (fun a isA b isB => agree isA isB)).1 isOwner
  exact Snapshot.hasFiniteBounds_of_ofText? read owner member property
    (List.mem_of_find?_eq_some named)

namespace SetProperty

/-- What a property with finite bounds makes of a value stays as it is and is in
range, an assignment stores just that and makes validation report nothing new
out of range, unless the value has NaN in it and the bounds are in the wrong
order.  All bounds that can be read are finite. -/
theorem confined_unless_inverted
    (property : Property)
    (value : Value)
    (document : Document)
    (command : SetProperty)
    (text : String) :
    (property.constraints.HasFiniteBounds → value.kind = property.kind →
      ∃ result, property.coerce value = .ok result ∧
        (property.checkRange result = .ok () ↔
          ¬ (value.hasNaN = true ∧ property.constraints.Inverted)) ∧
        (property.constrain result = result ↔
          ¬ (value.hasNaN = true ∧ property.constraints.Inverted))) ∧
    ((∀ owner ∈ command.targets, ∀ property,
        document.scene.property ⟨owner, command.property⟩ = .ok property →
        property.constraints.HasFiniteBounds) →
      (∀ fault ∈ (command.apply document).state.scene.violations,
        fault.isRange = true →
        fault ∈ document.scene.violations ∨ command.value.hasNaN = true ∧
          ∃ owner ∈ command.targets, ∃ property,
            document.scene.property ⟨owner, command.property⟩ = .ok property ∧
              property.constraints.Inverted) ∧
      ((command.apply document).result = .ok .changed →
        ∀ owner ∈ command.targets, ∃ property,
        document.scene.property ⟨owner, command.property⟩ = .ok property ∧
        (command.apply document).state.scene.property
            ⟨owner, command.property⟩ =
          .ok { property with value := property.constrain command.value } ∧
        (property.checkRange (property.constrain command.value) = .ok () ↔
          ¬ (command.value.hasNaN = true ∧ property.constraints.Inverted)))) ∧
    (∀ snapshot, Snapshot.ofText? text = some snapshot →
      (∀ owner ∈ snapshot.owners, ∀ property ∈ owner.properties,
        property.constraints.HasFiniteBounds) ∧
      ∀ settings document,
        Document.ofSnapshot snapshot settings = .ok document →
        ∀ address property, document.scene.property address = .ok property →
          property.constraints.HasFiniteBounds) := by
  refine ⟨?_, ?_, ?_⟩
  · intro finite kind
    have coerced : property.coerce value = .ok (property.constrain value) :=
      Property.coerce_eq_ok_iff.2 ⟨kind, rfl⟩
    exact ⟨_, coerced, Property.checkRange_of_coerce_iff finite coerced,
      Constraints.constrain_constrain_iff finite⟩
  · intro finite
    refine ⟨?_, ?_⟩
    · intro fault reported isRange
      by_cases inverted : command.value.hasNaN = true ∧
        ∃ owner ∈ command.targets, ∃ property,
          document.scene.property ⟨owner, command.property⟩ = .ok property ∧
            property.constraints.Inverted
      · exact Or.inr inverted
      · refine Or.inl (mem_violations_of_apply ?_ isRange reported)
        intro owner isTarget property found
        refine ⟨finite owner isTarget property found, ?_⟩
        rintro ⟨notNumber, isInverted⟩
        exact inverted ⟨notNumber, owner, isTarget, property, found, isInverted⟩
    · intro changed owner isTarget
      obtain ⟨property, found, kind, stored⟩ := property_apply changed isTarget
      exact ⟨property, found, stored, Property.checkRange_of_coerce_iff
        (finite owner isTarget property found)
        (Property.coerce_eq_ok_iff.2 ⟨kind, rfl⟩)⟩
  · intro snapshot read
    exact ⟨Snapshot.hasFiniteBounds_of_ofText? read, fun _ _ opened _ _ found =>
      Document.hasFiniteBounds_of_opened read opened found⟩

/-- A radius of three within bounds. -/
def radius (low high : Float) : Property where
  name := "radius"
  kind := .float
  value := .float 3.0
  constraints := { min := some low, max := some high }

/-- A document with nothing but a root that has such a radius. -/
def ringed (low high : Float) : Snapshot where
  id := ⟨7⟩
  root := ⟨1⟩
  styles := []
  tools := []
  selection := []
  clock := .new {}
  owners :=
    [{ id := ⟨1⟩, kind := .object .empty, properties := [radius low high] }]

/-- The same document as a text, records being written as arrays. -/
def ringedText (bounds : String) : String :=
  "[\"00000000-0000-0000-0000-000000000007\",1,[],[],[]," ++
    "[1,100,1,24.0,\"repeat\"],[[1,[\"object\",\"empty\"]," ++
    "[[\"radius\",\"float\",[\"float\",3.0]," ++ bounds ++ "]]]]]"

/-- Assigns NaN to the radius of the root. -/
def setNaN : SetProperty :=
  .new [⟨1⟩] "radius" (.float (0.0 / 0.0))

theorem confined_unless_inverted_ringed :
    let document := Document.unchecked (ringed 0.0 10.0) {}
    Snapshot.ofText? (ringedText "[0,10]") = some (ringed 0.0 10.0) ∧
      Document.ofSnapshot (ringed 0.0 10.0) {} = .ok document ∧
      (setNaN.apply document).result = .ok .changed ∧
      setNaN.value.hasNaN = true ∧
      (∀ fault ∈ (setNaN.apply document).state.scene.violations,
        fault.isRange = false) ∧
      ∃ result, (radius 0.0 10.0).coerce setNaN.value = .ok result ∧
        (radius 0.0 10.0).checkRange result = .ok () := by
  intro document
  have read : Snapshot.ofText? (ringedText "[0,10]") =
      some (ringed 0.0 10.0) := by decide +kernel
  have valid : document.scene.violations = [] := by decide +kernel
  have opened : Document.ofSnapshot (ringed 0.0 10.0) {} = .ok document :=
    Document.ofSnapshot_eq_ok_iff.2
      ⟨List.nodup_singleton _, by decide +kernel, valid, rfl⟩
  have changed : (setNaN.apply document).result = .ok .changed := by
    decide +kernel
  have ordered : ¬ (radius 0.0 10.0).constraints.Inverted := by
    rintro ⟨_, ⟨⟩, _, ⟨⟩, below⟩
    revert below
    decide +kernel
  obtain ⟨ofValue, ofCommand, ofText⟩ :=
    confined_unless_inverted (radius 0.0 10.0) setNaN.value
      document setNaN (ringedText "[0,10]")
  have finite := (ofText _ read).2 _ _ opened
  have known :
      document.scene.property ⟨⟨1⟩, "radius"⟩ = .ok (radius 0.0 10.0) := rfl
  have targets : setNaN.targets = [⟨1⟩] := rfl
  refine ⟨read, opened, changed, by decide +kernel, ?_, ?_⟩
  · intro fault reported
    by_contra isRange
    rw [Bool.not_eq_false] at isRange
    rcases (ofCommand fun _ _ => finite _).1 fault reported isRange with
      old | ⟨_, owner, isTarget, property, found, inverted⟩
    · rw [valid] at old
      cases old
    · rw [targets, List.mem_singleton] at isTarget
      subst isTarget
      obtain rfl := Except.ok.inj (known.symm.trans found)
      exact ordered inverted
  · obtain ⟨result, coerced, accepted, _⟩ := ofValue (finite _ _ known) rfl
    exact ⟨result, coerced, accepted.2 fun inverted => ordered inverted.2⟩

/-- With the upper bound below the lower one NaN becomes a radius that is out of
range, and a sound document is reported after it was assigned. -/
theorem nan_out_of_range_ringed :
    let document := Document.unchecked (ringed 5.0 3.0) {}
    Snapshot.ofText? (ringedText "[5,3]") = some (ringed 5.0 3.0) ∧
      Document.ofSnapshot (ringed 5.0 3.0) {} = .ok document ∧
      (radius 5.0 3.0).coerce (.float (0.0 / 0.0)) = .ok (.float 5.0) ∧
      (radius 5.0 3.0).checkRange (.float 5.0) =
        .error (.outOfRange "radius" "5 clamps to 3") ∧
      document.scene.violations = [] ∧
      (setNaN.apply document).state.scene.violations =
        [.outOfRange "radius" "5 clamps to 3"] := by
  intro document
  have valid : document.scene.violations = [] := by decide +kernel
  have opened : Document.ofSnapshot (ringed 5.0 3.0) {} = .ok document :=
    Document.ofSnapshot_eq_ok_iff.2
      ⟨List.nodup_singleton _, by decide +kernel, valid, rfl⟩
  exact ⟨by decide +kernel, opened, by decide +kernel, by decide +kernel, valid,
    by decide +kernel⟩

end SetProperty
end MotionScene
