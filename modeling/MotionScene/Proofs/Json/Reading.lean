import MotionScene.Json.Record

/-!
# Reading back what was written

A record is written as its named slots, those without a value being left out.
Read by the names of its slots it gives every slot back, whichever were left
out, so an object determines its slots.  Lists, optional values and numbers read
back as soon as their parts do.
-/

namespace MotionScene
namespace Json

/-! ## Slots of a record -/

/-- The fields of a record: its slots in order, without those that have no
value. -/
def present (slots : List (String × Option Json)) : List (String × Json) :=
  slots.filterMap fun slot => slot.2.map fun value => (slot.1, value)

theorem present_append (first second : List (String × Option Json)) :
    present (first ++ second) = present first ++ present second :=
  List.filterMap_append

theorem present_cons_none
    (name : String)
    (slots : List (String × Option Json)) :
    present ((name, none) :: slots) = present slots :=
  rfl

theorem present_cons_some
    (name : String)
    (value : Json)
    (slots : List (String × Option Json)) :
    present ((name, some value) :: slots) = (name, value) :: present slots :=
  rfl

theorem optionalField_eq_present
    {α : Type}
    (name : String)
    (encode : α → Json)
    (value : Option α) :
    optionalField name encode value = present [(name, value.map encode)] := by
  cases value <;> rfl

theorem names_present_sublist (slots : List (String × Option Json)) :
    ((present slots).map Prod.fst).Sublist (slots.map Prod.fst) := by
  induction slots with
  | nil => exact List.Sublist.slnil
  | cons slot rest inductionHypothesis =>
      obtain ⟨name, value⟩ := slot
      cases value with
      | none => exact inductionHypothesis.cons name
      | some value => exact inductionHypothesis.cons_cons name

theorem countField_eq_count (name : String) (fields : List (String × Json)) :
    countField name fields = (fields.map Prod.fst).count name := by
  rw [countField, List.count, List.countP_map, List.countP_eq_length_filter]
  rfl

/-- No name of a record with distinct slots is written twice. -/
theorem countField_present_le_one
    {slots : List (String × Option Json)}
    (distinct : (slots.map Prod.fst).Nodup)
    (name : String) :
    countField name (present slots) ≤ 1 := by
  rw [countField_eq_count]
  exact List.nodup_iff_count.1
    ((names_present_sublist slots).nodup distinct) name

theorem field?_cons
    (first name : String)
    (value : Json)
    (fields : List (String × Json)) :
    (Json.obj ((first, value) :: fields)).field? name =
      if first = name then some value else (Json.obj fields).field? name := by
  by_cases same : first = name <;> simp [field?, same]

theorem field?_eq_none
    {name : String}
    {fields : List (String × Json)}
    (absent : name ∉ fields.map Prod.fst) :
    (Json.obj fields).field? name = none := by
  rw [field?, Option.map_eq_none_iff, List.find?_eq_none]
  intro field member same
  exact absent (List.mem_map.2 ⟨field, member, by simpa using same⟩)

/-- A slot of a record with distinct slots is found under its name, or its name
is not written. -/
theorem field?_present
    {slots : List (String × Option Json)}
    (distinct : (slots.map Prod.fst).Nodup)
    {slot : String × Option Json}
    (member : slot ∈ slots) :
    (Json.obj (present slots)).field? slot.1 = slot.2 := by
  induction slots with
  | nil => cases member
  | cons first rest inductionHypothesis =>
      obtain ⟨name, value⟩ := first
      rw [List.map_cons, List.nodup_cons] at distinct
      rcases List.mem_cons.1 member with rfl | later
      · cases value with
        | none =>
            rw [present_cons_none]
            exact field?_eq_none fun written =>
              distinct.1 ((names_present_sublist rest).subset written)
        | some value => rw [present_cons_some, field?_cons, if_pos rfl]
      · have other : name ≠ slot.1 := by
          rintro rfl
          exact distinct.1 (List.mem_map.2 ⟨slot, later, rfl⟩)
        cases value with
        | none => exact inductionHypothesis distinct.2 later
        | some value =>
            rw [present_cons_some, field?_cons, if_neg other]
            exact inductionHypothesis distinct.2 later

/-- A record reads back slot by slot. -/
theorem record?_present
    (slots : List (String × Option Json))
    {names : List String}
    (named : slots.map Prod.fst = names)
    (distinct : names.Nodup) :
    record? names (.obj (present slots)) = some (slots.map Prod.snd) := by
  subst named
  have once : ((slots.map Prod.fst).all fun name =>
      decide (countField name (present slots) ≤ 1)) = true := by
    simpa using fun name _ _ => countField_present_le_one distinct name
  have values : (slots.map Prod.fst).map
        (fun name => (Json.obj (present slots)).field? name) =
      slots.map Prod.snd := by
    rw [List.map_map]
    exact List.map_congr_left fun slot member => field?_present distinct member
  rw [record?, if_pos once, values]

/-- An object determines the slots it was written from. -/
theorem present_inj
    {first second : List (String × Option Json)}
    (names : List String)
    (firstNamed : first.map Prod.fst = names)
    (secondNamed : second.map Prod.fst = names)
    (distinct : names.Nodup)
    (same : Json.obj (present first) = Json.obj (present second)) :
    first.map Prod.snd = second.map Prod.snd := by
  have read := record?_present first firstNamed distinct
  rw [same, record?_present second secondNamed distinct] at read
  exact (Option.some.inj read).symm

/-- A choice with content reads back as its name and its content. -/
theorem tagged?_present
    {nameField contentField : String}
    (distinct : nameField ≠ contentField)
    (name : String)
    (content : Option Json) :
    tagged? nameField contentField
        (.obj (present [(nameField, some (.str name)),
          (contentField, content)])) =
      some (name, content) := by
  have read : record? [nameField, contentField]
      (.obj (present [(nameField, some (.str name)),
        (contentField, content)])) = some [some (.str name), content] :=
    record?_present _ rfl (by simpa using distinct)
  have later : comesFirst contentField nameField
      (present [(nameField, some (.str name)), (contentField, content)]) =
        false := by
    simp [comesFirst, present_cons_some, distinct]
  unfold tagged?
  simp only
  rw [read, later]
  cases content <;> rfl

/-! ## Parts of a record -/

theorem list?_ofList
    {α : Type}
    {encode : α → Json}
    {decode : Json → Option α}
    {items : List α}
    (reads : ∀ item ∈ items, decode (encode item) = some item) :
    list? decode (ofList encode items) = some items := by
  change (items.map encode).mapM decode = some items
  induction items with
  | nil => rfl
  | cons item rest inductionHypothesis =>
      rw [List.forall_mem_cons] at reads
      rw [List.map_cons, List.mapM_cons, reads.1, inductionHypothesis reads.2]
      rfl

theorem nullable?_of_ne_null
    {α : Type}
    {decode : Json → Option α}
    {tree : Json}
    (written : tree ≠ .null) :
    nullable? decode tree = (decode tree).map some := by
  cases tree <;> first | rfl | exact absurd rfl written

/-- A value that may be null reads back, as long as no value is written as
null. -/
theorem nullable?_ofOption
    {α : Type}
    {encode : α → Json}
    {decode : Json → Option α}
    {value : Option α}
    (written : ∀ present, encode present ≠ .null)
    (reads : ∀ present ∈ value, decode (encode present) = some present) :
    nullable? decode (ofOption encode value) = some value := by
  cases value with
  | none => rfl
  | some present =>
      rw [ofOption, nullable?_of_ne_null (written present), reads present rfl]
      rfl

/-- A value whose field is left out when it is absent reads back. -/
theorem withDefault_map
    {α : Type}
    {encode : α → Json}
    {decode : Json → Option α}
    {value : Option α}
    (written : ∀ present ∈ value, encode present ≠ .null)
    (reads : ∀ present ∈ value, decode (encode present) = some present) :
    withDefault none (nullable? decode) (value.map encode) = some value := by
  cases value with
  | none => rfl
  | some present =>
      rw [Option.map_some, withDefault,
        nullable?_of_ne_null (written present rfl), reads present rfl]
      rfl

/-- The slot of a list that is left out when it is empty. -/
def filled {α : Type} (encode : α → Json) (items : List α) : Option Json :=
  if items.isEmpty then none else some (ofList encode items)

theorem filledField_eq_present
    {α : Type}
    (name : String)
    (encode : α → Json)
    (items : List α) :
    (if items.isEmpty then [] else [(name, ofList encode items)]) =
      present [(name, filled encode items)] := by
  cases items <;> rfl

/-- A list whose field is left out when it is empty reads back. -/
theorem withDefault_filled
    {α : Type}
    {encode : α → Json}
    {decode : Json → Option α}
    {items : List α}
    (reads : ∀ item ∈ items, decode (encode item) = some item) :
    withDefault [] (list? decode) (filled encode items) = some items := by
  cases items with
  | nil => rfl
  | cons item rest => exact list?_ofList reads

/-! ## Numbers and names -/

theorem float?_ofFloat {x : Float} (finite : x.isFinite = true) :
    float? (ofFloat x) = some x := by
  rw [ofFloat, if_pos finite, float?]

theorem ofFloat_ne_null {x : Float} (finite : x.isFinite = true) :
    ofFloat x ≠ .null := by
  rw [ofFloat, if_pos finite]
  simp

theorem int32?_int (n : Int32) : int32? (.int n.toInt) = some n := by
  have lower : -2147483648 ≤ n.toInt := n.le_toInt
  have upper : n.toInt ≤ 2147483647 := n.toInt_le
  simp [int32?, int?, lower, upper]

theorem int64?_int (n : Int64) : int64? (.int n.toInt) = some n := by
  have lower : -9223372036854775808 ≤ n.toInt := n.le_toInt
  have upper : n.toInt ≤ 9223372036854775807 := n.toInt_le
  simp [int64?, int?, lower, upper]

theorem nat64?_ofNat {n : Nat} (fits : n ≤ 18446744073709551615) :
    nat64? (ofNat n) = some n := by
  have bounds : (0 : Int) ≤ n ∧ (n : Int) ≤ 18446744073709551615 := by omega
  simp [nat64?, ofNat, int?, bounds]

/-- A choice without content is read by its name. -/
theorem choice?_str {α : Type} (ofName? : String → Option α) (name : String) :
    choice? ofName? (.str name) = ofName? name :=
  rfl

end Json
end MotionScene
