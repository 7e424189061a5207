import MotionScene.Document.Snapshot
import MotionScene.Proofs.Json.Reading
import MotionScene.Proofs.Property.Constraining

/-!
# Numbers that can be read

Every number of a tree that was read from a text is a finite double, or a whole
number of at most sixty-four bits.  The bounds of every property of a snapshot
are therefore finite, whatever was written.
-/

namespace MotionScene

theorem Number.isFinite_neg {x : Float} (finite : x.isFinite = true) :
    (-x).isFinite = true := by
  obtain ⟨_, stands⟩ := exists_standsFor finite
  exact stands.neg.isFinite

namespace Json

/-- Every number in the tree is a finite double or a whole number of at most
sixty-four bits. -/
inductive Finite : Json → Prop
  | null : Finite .null
  | bool (value : Bool) : Finite (.bool value)
  | int {value : Int} (fits : value.natAbs ≤ 2 ^ 64) : Finite (.int value)
  | float {value : Float} (finite : value.isFinite = true) :
      Finite (.float value)
  | str (value : String) : Finite (.str value)
  | arr {items : List Json} (each : ∀ item ∈ items, Finite item) :
    Finite (.arr items)
  | obj {fields : List (String × Json)}
    (each : ∀ field ∈ fields, Finite field.2) :
      Finite (.obj fields)
  | unreadable : Finite .unreadable

/-! ## Reading text -/

namespace Parser

theorem finite_signed (negative : Bool) (x : Float) :
    (signed negative x).Finite := by
  rw [signed]
  split
  · next finite =>
    cases negative
    · exact .float finite
    · exact .float (Number.isFinite_neg finite)
  · exact .unreadable

theorem finite_wholeNumber (negative : Bool) (value : Nat) :
    (wholeNumber negative value).Finite := by
  rw [wholeNumber]
  split
  · split
    · exact .float (by decide +kernel)
    · split
      · exact .int (by omega)
      · exact finite_signed _ _
  · split
    · exact .int (by omega)
    · exact finite_signed _ _

variable {tree : Json} {text rest : List Char}

theorem finite_of_number? (read : number? text = some (tree, rest)) :
    tree.Finite := by
  unfold number? at read
  obtain ⟨⟨whole, afterWhole⟩, _, read⟩ := Option.bind_eq_some_iff.1 read
  obtain ⟨⟨coefficient, places, pointed, afterFraction⟩, _, read⟩ :=
    Option.bind_eq_some_iff.1 read
  obtain ⟨⟨power, raised, afterPower⟩, _, read⟩ :=
    Option.bind_eq_some_iff.1 read
  dsimp only at read
  split at read
  · cases read
    exact finite_signed _ _
  · cases read
    exact finite_wholeNumber _ _

theorem finite_of_string? (read : string? text = some (tree, rest)) :
    tree.Finite := by
  obtain ⟨⟨content, after⟩, _, same⟩ := Option.map_eq_some_iff.1 read
  cases same
  cases content with
  | none => exact .unreadable
  | some content => exact .str content

theorem finite_of_scalar? (read : scalar? text = some (tree, rest)) :
    tree.Finite := by
  unfold scalar? at read
  split at read
  · exact finite_of_string? read
  · obtain ⟨_, _, same⟩ := Option.map_eq_some_iff.1 read
    cases same
    exact .bool true
  · obtain ⟨_, _, same⟩ := Option.map_eq_some_iff.1 read
    cases same
    exact .bool false
  · obtain ⟨_, _, same⟩ := Option.map_eq_some_iff.1 read
    cases same
    exact .null
  · exact finite_of_number? read

theorem finite_of_passed?
    {fuel : Nat}
    (read : passed? fuel text = some (tree, rest)) :
    tree.Finite := by
  obtain ⟨_, _, same⟩ := Option.map_eq_some_iff.1 read
  cases same
  exact .unreadable

theorem finite_prepend
    (name : Option String)
    {value : Json}
    (finite : value.Finite)
    {before : Option (List (String × Json))}
    (earlier : ∀ fields ∈ before, ∀ field ∈ fields, Json.Finite field.2) :
    ∀ fields ∈ prepend name value before, ∀ field ∈ fields,
      Json.Finite field.2 := by
  intro fields isFields
  obtain ⟨text, _, isFields⟩ := Option.bind_eq_some_iff.1 isFields
  obtain ⟨others, isOthers, same⟩ := Option.bind_eq_some_iff.1 isFields
  cases same
  exact List.forall_mem_cons.2 ⟨finite, earlier others isOthers⟩

theorem finite_object
    {reversed : Option (List (String × Json))}
    (each : ∀ fields ∈ reversed, ∀ field ∈ fields, Json.Finite field.2) :
    (object reversed).Finite := by
  cases reversed with
  | none => exact .unreadable
  | some fields =>
      exact .obj fun field member =>
        each fields rfl field (List.mem_reverse.1 member)

/-- What each of the three readers gives, by induction on the fuel they share:
the items and fields read before are finite, so are those to come. -/
theorem finite_of_readers (fuel : Nat) :
    (∀ depth text tree rest, value? fuel depth text = some (tree, rest) →
      tree.Finite) ∧
    (∀ depth before text tree rest, (∀ item ∈ before, Json.Finite item) →
      items? fuel depth before text = some (tree, rest) → tree.Finite) ∧
    (∀ depth before text tree rest,
      (∀ fields ∈ before, ∀ field ∈ fields, Json.Finite field.2) →
      fields? fuel depth before text = some (tree, rest) → tree.Finite) := by
  induction fuel with
  | zero => exact ⟨nofun, nofun, nofun⟩
  | succ fuel inductionHypothesis =>
      obtain ⟨value, items, fields⟩ := inductionHypothesis
      refine ⟨?_, ?_, ?_⟩
      · intro depth text tree rest read
        unfold value? at read
        split at read
        · split at read
          · exact finite_of_passed? read
          · split at read
            · cases read
              exact .arr nofun
            · exact items _ _ _ _ _ (List.forall_mem_nil _) read
        · split at read
          · exact finite_of_passed? read
          · split at read
            · cases read
              exact .obj nofun
            · refine fields _ _ _ _ _ ?_ read
              rintro _ ⟨⟩ _ ⟨⟩
        · exact finite_of_scalar? read
      · intro depth before text tree rest earlier read
        unfold items? at read
        obtain ⟨⟨item, after⟩, first, read⟩ := Option.bind_eq_some_iff.1 read
        have all : ∀ other ∈ item :: before, other.Finite :=
          List.forall_mem_cons.2 ⟨value _ _ _ _ first, earlier⟩
        dsimp only at read
        split at read
        · exact items _ _ _ _ _ all read
        · cases read
          exact .arr fun other member => all other (List.mem_reverse.1 member)
        · cases read
      · intro depth before text tree rest earlier read
        unfold fields? at read
        split at read
        · obtain ⟨⟨name, after⟩, _, read⟩ := Option.bind_eq_some_iff.1 read
          dsimp only at read
          split at read
          · obtain ⟨⟨first, afterFirst⟩, isFirst, read⟩ :=
              Option.bind_eq_some_iff.1 read
            have all := finite_prepend name (value _ _ _ _ isFirst) earlier
            dsimp only at read
            split at read
            · exact fields _ _ _ _ _ all read
            · cases read
              exact finite_object all
            · cases read
          · cases read
        · cases read

end Parser

theorem finite_of_read?
    {text : String}
    {tree : Json}
    (read : read? text = some tree) :
    tree.Finite := by
  unfold read? at read
  dsimp only at read
  split at read
  · next whole rest isValue =>
    split at read
    · cases read
      exact (Parser.finite_of_readers _).1 _ _ _ _ isValue
    · cases read
  · cases read

/-! ## Reading by shape -/

section Shapes

variable {tree : Json}

theorem Finite.float?
    (finite : tree.Finite)
    {x : Float}
    (read : tree.float? = some x) :
    x.isFinite = true := by
  cases finite with
  | int fits =>
      cases read
      exact Number.Exact.isFinite_ofInt fits
  | float isFinite =>
      cases read
      exact isFinite
  | _ => cases read

/-- The fields of a record are finite if the record is. -/
theorem Finite.record?
    (finite : tree.Finite)
    {names : List String}
    {slots : List (Option Json)}
    (read : tree.record? names = some slots) :
    ∀ slot ∈ slots, ∀ value ∈ slot, value.Finite := by
  intro slot member value isValue
  cases finite with
  | arr each =>
      unfold Json.record? at read
      dsimp only at read
      split at read
      · cases read
        rcases List.mem_append.1 member with written | missing
        · obtain ⟨item, among, rfl⟩ := List.mem_map.1 written
          cases isValue
          exact each _ among
        · rw [List.eq_of_mem_replicate missing] at isValue
          cases isValue
      · cases read
  | obj each =>
      unfold Json.record? at read
      dsimp only at read
      split at read
      · cases read
        obtain ⟨name, _, rfl⟩ := List.mem_map.1 member
        obtain ⟨field, found, rfl⟩ := Option.map_eq_some_iff.1 isValue
        exact each field (List.mem_of_find?_eq_some found)
      · cases read
  | _ => cases read

theorem forall_of_mapM
    {α : Type}
    {decode : Json → Option α}
    {holds : α → Prop}
    {items : List Json}
    {results : List α}
    (each : ∀ item ∈ items, ∀ result, decode item = some result → holds result)
    (read : items.mapM decode = some results) :
    ∀ result ∈ results, holds result := by
  induction items generalizing results with
  | nil =>
      cases read
      exact List.forall_mem_nil _
  | cons item rest inductionHypothesis =>
      rw [List.mapM_cons] at read
      obtain ⟨first, isFirst, readRest⟩ := Option.bind_eq_some_iff.1 read
      obtain ⟨others, areOthers, same⟩ := Option.bind_eq_some_iff.1 readRest
      cases same
      obtain ⟨holdsFirst, holdsRest⟩ := List.forall_mem_cons.1 each
      exact List.forall_mem_cons.2
        ⟨holdsFirst first isFirst, inductionHypothesis holdsRest areOthers⟩

/-- What holds of everything read from finite trees holds of every item of a
list. -/
theorem Finite.list?
    {α : Type}
    {decode : Json → Option α}
    {holds : α → Prop}
    (each : ∀ item result, item.Finite → decode item = some result →
      holds result)
    (finite : tree.Finite)
    {results : List α}
    (read : tree.list? decode = some results) :
    ∀ result ∈ results, holds result := by
  obtain ⟨items, isItems, readItems⟩ := Option.bind_eq_some_iff.1 read
  cases finite with
  | arr finiteItems =>
      cases isItems
      exact forall_of_mapM
        (fun item member result => each item result (finiteItems item member))
        readItems
  | _ => cases isItems

/-- An optional double is finite if it is there. -/
theorem finite_of_optional
    {slot : Option Json}
    (finite : ∀ value ∈ slot, value.Finite)
    {bound : Option Float}
    (read : withDefault none (nullable? Json.float?) slot = some bound) :
    ∀ x ∈ bound, x.isFinite = true := by
  intro x isBound
  cases slot with
  | none =>
      cases read
      cases isBound
  | some value =>
      rw [withDefault] at read
      by_cases isNull : value = .null
      · rw [isNull] at read
        cases read
        cases isBound
      · rw [nullable?_of_ne_null isNull] at read
        obtain ⟨y, isFloat, same⟩ := Option.map_eq_some_iff.1 read
        cases same
        cases isBound
        exact (finite value rfl).float? isFloat

end Shapes

end Json

/-! ## Snapshots -/

theorem Constraints.hasFiniteBounds_of_ofJson?
    {tree : Json}
    (finite : tree.Finite)
    {constraints : Constraints}
    (read : ofJson? tree = some constraints) :
    constraints.HasFiniteBounds := by
  obtain ⟨slots, isSlots, read⟩ := Option.bind_eq_some_iff.1 read
  have each := finite.record? isSlots
  split at read
  · next min max step options filter =>
    obtain ⟨low, isLow, read⟩ := Option.bind_eq_some_iff.1 read
    obtain ⟨high, isHigh, read⟩ := Option.bind_eq_some_iff.1 read
    obtain ⟨_, _, read⟩ := Option.bind_eq_some_iff.1 read
    obtain ⟨_, _, read⟩ := Option.bind_eq_some_iff.1 read
    obtain ⟨_, _, same⟩ := Option.bind_eq_some_iff.1 read
    cases same
    exact ⟨Json.finite_of_optional (each min (by simp)) isLow,
      Json.finite_of_optional (each max (by simp)) isHigh⟩
  · cases read

theorem Property.hasFiniteBounds_of_ofJson?
    {tree : Json}
    (finite : tree.Finite)
    {property : Property}
    (read : ofJson? tree = some property) :
    property.constraints.HasFiniteBounds := by
  obtain ⟨slots, isSlots, read⟩ := Option.bind_eq_some_iff.1 read
  have each := finite.record? isSlots
  split at read
  · next name kind value constraints track =>
    obtain ⟨_, _, read⟩ := Option.bind_eq_some_iff.1 read
    obtain ⟨_, _, read⟩ := Option.bind_eq_some_iff.1 read
    obtain ⟨_, _, read⟩ := Option.bind_eq_some_iff.1 read
    obtain ⟨_, isConstraints, read⟩ := Option.bind_eq_some_iff.1 read
    obtain ⟨_, _, same⟩ := Option.bind_eq_some_iff.1 read
    cases same
    cases constraints with
    | none =>
        cases isConstraints
        exact ⟨nofun, nofun⟩
    | some written =>
        exact Constraints.hasFiniteBounds_of_ofJson?
          (each (some written) (by simp) written rfl) isConstraints
  · cases read

theorem Owner.hasFiniteBounds_of_ofJson?
    {tree : Json}
    (finite : tree.Finite)
    {owner : Owner}
    (read : ofJson? tree = some owner) :
    ∀ property ∈ owner.properties, property.constraints.HasFiniteBounds := by
  obtain ⟨slots, isSlots, read⟩ := Option.bind_eq_some_iff.1 read
  have each := finite.record? isSlots
  split at read
  · next id kind properties parent children tags geometry =>
    obtain ⟨_, _, read⟩ := Option.bind_eq_some_iff.1 read
    obtain ⟨_, _, read⟩ := Option.bind_eq_some_iff.1 read
    obtain ⟨_, areProperties, read⟩ := Option.bind_eq_some_iff.1 read
    obtain ⟨_, _, read⟩ := Option.bind_eq_some_iff.1 read
    obtain ⟨_, _, read⟩ := Option.bind_eq_some_iff.1 read
    obtain ⟨_, _, read⟩ := Option.bind_eq_some_iff.1 read
    obtain ⟨_, _, same⟩ := Option.bind_eq_some_iff.1 read
    cases same
    obtain ⟨written, isWritten, areProperties⟩ :=
      Option.bind_eq_some_iff.1 areProperties
    exact (each properties (by simp) written isWritten).list?
      (fun _ _ finite read => Property.hasFiniteBounds_of_ofJson? finite read)
      areProperties
  · cases read

/-- The bounds of every property of a snapshot that was read from a text are
finite. -/
theorem Snapshot.hasFiniteBounds_of_ofText?
    {text : String}
    {snapshot : Snapshot}
    (read : ofText? text = some snapshot) :
    ∀ owner ∈ snapshot.owners, ∀ property ∈ owner.properties,
      property.constraints.HasFiniteBounds := by
  obtain ⟨tree, isTree, read⟩ := Option.bind_eq_some_iff.1 read
  obtain ⟨slots, isSlots, read⟩ := Option.bind_eq_some_iff.1 read
  have each := (Json.finite_of_read? isTree).record? isSlots
  split at read
  · next id root styles tools selection clock owners =>
    obtain ⟨_, _, read⟩ := Option.bind_eq_some_iff.1 read
    obtain ⟨_, _, read⟩ := Option.bind_eq_some_iff.1 read
    obtain ⟨_, _, read⟩ := Option.bind_eq_some_iff.1 read
    obtain ⟨_, _, read⟩ := Option.bind_eq_some_iff.1 read
    obtain ⟨_, _, read⟩ := Option.bind_eq_some_iff.1 read
    obtain ⟨_, _, read⟩ := Option.bind_eq_some_iff.1 read
    obtain ⟨_, areOwners, same⟩ := Option.bind_eq_some_iff.1 read
    cases same
    obtain ⟨written, isWritten, areOwners⟩ :=
      Option.bind_eq_some_iff.1 areOwners
    exact (each owners (by simp) written isWritten).list?
      (fun _ _ finite read =>
        Owner.hasFiniteBounds_of_ofJson? finite read) areOwners
  · cases read

end MotionScene
