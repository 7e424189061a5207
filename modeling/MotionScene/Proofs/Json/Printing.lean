import MotionScene.Json.Printer
import MotionScene.Json.Scalar
import MotionScene.Proofs.Identifier
import MotionScene.Proofs.Number.Written

/-!
# Printed trees

A tree without unreadable values whose doubles are finite is determined by its
text.  The proof reads two texts from the left: what follows a value never
continues a number, an escaped character is told from its successors, and the
first character of a value tells its sort.
-/

namespace MotionScene
namespace Json

/-- The trees that have a text of their own: no unreadable values and finite
doubles only. -/
inductive Printable : Json → Prop
  | null : Printable .null
  | yes : Printable (.bool true)
  | no : Printable (.bool false)
  | int (value : Int) : Printable (.int value)
  | float {value : Float} (finite : value.isFinite = true) :
      Printable (.float value)
  | str (value : String) : Printable (.str value)
  | arr {items : List Json} (each : ∀ item ∈ items, Printable item) :
      Printable (.arr items)
  | obj {fields : List (String × Json)}
    (each : ∀ field ∈ fields, Printable field.2) :
      Printable (.obj fields)

/-- Induction on trees, with the hypothesis for every item and for the value of
every field. -/
theorem tree_induction
    {motive : Json → Prop}
    (null : motive .null)
    (bool : ∀ value, motive (.bool value))
    (int : ∀ value, motive (.int value))
    (float : ∀ value, motive (.float value))
    (str : ∀ value, motive (.str value))
    (arr : ∀ items, (∀ item ∈ items, motive item) → motive (.arr items))
    (obj : ∀ fields, (∀ field ∈ fields, motive field.2) → motive (.obj fields))
    (unreadable : motive .unreadable)
    (tree : Json) :
    motive tree :=
  @Json.rec motive (fun items => ∀ item ∈ items, motive item)
    (fun fields => ∀ field ∈ fields, motive field.2)
    (fun field => motive field.2) null bool int
    float str arr obj unreadable (by simp)
    (fun _ _ head tail => List.forall_mem_cons.2 ⟨head, tail⟩) (by simp)
    (fun _ _ head tail => List.forall_mem_cons.2 ⟨head, tail⟩)
    (fun _ _ value => value) tree

/-! ## Strings -/

/-- The first character of escaped text, and the text after it; none at a
quote. -/
def unescaped? : List Char → Option (Char × List Char)
  | '\\' :: 'u' :: _ :: _ :: high :: low :: rest => do
    return (Char.ofNat (16 * (← Digit.hex? high) + (← Digit.hex? low)), rest)
  | '\\' :: mark :: rest => (Parser.shortEscape? mark).map fun c => (c, rest)
  | '"' :: _ => none
  | c :: rest => some (c, rest)
  | [] => none

theorem unescaped?_escapeChar (c : Char) (rest : List Char) :
    unescaped? (escapeChar c ++ rest) = some (c, rest) := by
  unfold escapeChar
  split_ifs with quote backslash newline carriage tab backspace feed control
  · rw [quote]
    rfl
  · rw [backslash]
    rfl
  · rw [newline]
    rfl
  · rw [carriage]
    rfl
  · rw [tab]
    rfl
  · rw [← Char.ofNat_toNat c, backspace]
    rfl
  · rw [← Char.ofNat_toNat c, feed]
    rfl
  · have high :
        Digit.hex? (Digit.lowerHex (c.toNat / 16)) = some (c.toNat / 16) :=
      Digit.hex?_lowerHex (by omega)
    have low :
        Digit.hex? (Digit.lowerHex (c.toNat % 16)) = some (c.toNat % 16) :=
      Digit.hex?_lowerHex (by omega)
    have whole : 16 * (c.toNat / 16) + c.toNat % 16 = c.toNat := by omega
    simp [unescaped?, high, low, whole]
  · unfold unescaped?
    split <;> simp_all

theorem escaped_inj
    {first second rest other : List Char}
    (same : first.flatMap escapeChar ++ '"' :: rest =
      second.flatMap escapeChar ++ '"' :: other) :
    first = second ∧ rest = other := by
  induction first generalizing second with
  | nil =>
      cases second with
      | nil => exact ⟨rfl, (List.cons.inj same).2⟩
      | cons d second =>
          have read := congrArg unescaped? same
          rw [List.flatMap_cons, List.append_assoc, unescaped?_escapeChar]
            at read
          cases read
  | cons c first inductionHypothesis =>
      have read := congrArg unescaped? same
      rw [List.flatMap_cons, List.append_assoc, unescaped?_escapeChar] at read
      cases second with
      | nil => cases read
      | cons d second =>
          rw [List.flatMap_cons, List.append_assoc, unescaped?_escapeChar]
            at read
          obtain ⟨rfl, tails⟩ := Prod.mk.inj (Option.some.inj read)
          obtain ⟨rfl, rfl⟩ := inductionHypothesis tails
          exact ⟨rfl, rfl⟩

/-! ## Numbers -/

/-- Whether a text does not continue a number that stands before it. -/
def Closed (rest : List Char) : Prop :=
  ∀ c ∈ rest.head?, Number.isNumeral c = false

theorem takeWhile_isNumeral
    {text rest : List Char}
    (numeral : ∀ c ∈ text, Number.isNumeral c = true)
    (closed : Closed rest) :
    (text ++ rest).takeWhile Number.isNumeral = text := by
  rw [List.takeWhile_append_of_pos numeral]
  cases rest with
  | nil => simp
  | cons c rest =>
      rw [List.takeWhile_cons_of_neg (by simp [closed c rfl]), List.append_nil]

/-- Two texts of numeral characters are told apart by what follows them. -/
theorem numeral_inj
    {first second rest other : List Char}
    (firstNumeral : ∀ c ∈ first, Number.isNumeral c = true)
    (secondNumeral : ∀ c ∈ second, Number.isNumeral c = true)
    (closed : Closed rest)
    (otherClosed : Closed other)
    (same : first ++ rest = second ++ other) :
    first = second ∧ rest = other := by
  have read := congrArg (List.takeWhile Number.isNumeral) same
  rw [takeWhile_isNumeral firstNumeral closed,
    takeWhile_isNumeral secondNumeral otherClosed] at read
  subst read
  exact ⟨rfl, List.append_cancel_left same⟩

/-! ## Lists -/

/-- Texts led by commas, and a closing bracket. -/
def closedBy (close : Char) : List (List Char) → List Char
  | [] => [close]
  | part :: rest => ',' :: (part ++ closedBy close rest)

/-- Texts with commas between them, and a closing bracket. -/
def listed (close : Char) : List (List Char) → List Char
  | [] => [close]
  | part :: rest => part ++ closedBy close rest

theorem intercalate_append (close : Char) (parts : List (List Char)) :
    [','].intercalate parts ++ [close] = listed close parts := by
  cases parts with
  | nil => rfl
  | cons part rest =>
      rw [listed]
      induction rest generalizing part with
      | nil => simp [closedBy]
      | cons next rest inductionHypothesis =>
          rw [List.intercalate_cons_cons, List.append_assoc,
            inductionHypothesis, closedBy]
          simp

theorem closed_closedBy
    {close : Char}
    (closes : Number.isNumeral close = false)
    (parts : List (List Char))
    (rest : List Char) :
    Closed (closedBy close parts ++ rest) := by
  intro c head
  cases parts with
  | nil =>
      cases head
      exact closes
  | cons part parts =>
      cases head
      rfl

section Listed

variable {α : Type} {encode : α → List Char} {close : Char}
  {first second : List α}

/-- Lists of unambiguous texts are unambiguous after their first element. -/
theorem closedBy_inj
    (closes : Number.isNumeral close = false)
    (noComma : close ≠ ',')
    (unambiguous : ∀ a ∈ first, ∀ b ∈ second, ∀ rest other, Closed rest →
      Closed other →
      encode a ++ rest = encode b ++ other → a = b ∧ rest = other)
    {rest other : List Char}
    (same : closedBy close (first.map encode) ++ rest =
      closedBy close (second.map encode) ++ other) :
    first = second ∧ rest = other := by
  induction first generalizing second with
  | nil =>
      cases second with
      | nil => exact ⟨rfl, (List.cons.inj same).2⟩
      | cons b second => exact absurd (List.cons.inj same).1 noComma
  | cons a first inductionHypothesis =>
      cases second with
      | nil => exact absurd (List.cons.inj same).1.symm noComma
      | cons b second =>
          have parts := (List.cons.inj same).2
          simp only [List.append_eq, List.append_assoc] at parts
          obtain ⟨rfl, tails⟩ :=
            unambiguous a List.mem_cons_self b List.mem_cons_self _ _
              (closed_closedBy closes _ _) (closed_closedBy closes _ _) parts
          obtain ⟨rfl, rfl⟩ := inductionHypothesis
            (fun c member d other =>
              unambiguous c (List.mem_cons_of_mem a member) d
              (List.mem_cons_of_mem a other)) tails
          exact ⟨rfl, rfl⟩

/-- Lists of unambiguous texts that do not start like the closing bracket are
unambiguous. -/
theorem listed_inj
    (closes : Number.isNumeral close = false)
    (noComma : close ≠ ',')
    (opens : ∀ a ∈ first ++ second, ∃ c text, encode a = c :: text ∧ c ≠ close)
    (unambiguous : ∀ a ∈ first, ∀ b ∈ second, ∀ rest other, Closed rest →
      Closed other →
      encode a ++ rest = encode b ++ other → a = b ∧ rest = other)
    {rest other : List Char}
    (same : listed close (first.map encode) ++ rest =
      listed close (second.map encode) ++ other) :
    first = second ∧ rest = other := by
  cases first with
  | nil =>
      cases second with
      | nil => exact ⟨rfl, (List.cons.inj same).2⟩
      | cons b second =>
          obtain ⟨c, text, form, noClose⟩ := opens b (by simp)
          simp only [List.map_cons, listed, form] at same
          exact absurd (List.cons.inj same).1.symm noClose
  | cons a first =>
      cases second with
      | nil =>
          obtain ⟨c, text, form, noClose⟩ := opens a (by simp)
          simp only [List.map_cons, listed, form] at same
          exact absurd (List.cons.inj same).1 noClose
      | cons b second =>
          simp only [List.map_cons, listed, List.append_assoc] at same
          obtain ⟨rfl, tails⟩ :=
            unambiguous a List.mem_cons_self b List.mem_cons_self _ _
              (closed_closedBy closes _ _) (closed_closedBy closes _ _) same
          obtain ⟨rfl, rfl⟩ := closedBy_inj closes noComma
            (fun c member d other =>
              unambiguous c (List.mem_cons_of_mem a member) d
              (List.mem_cons_of_mem a other)) tails
          exact ⟨rfl, rfl⟩

end Listed

/-! ## Trees -/

/-- The characters of the text of a tree. -/
def characters (tree : Json) : List Char :=
  tree.text.toList

/-- The characters of the text of a field. -/
def fieldCharacters (field : String × Json) : List Char :=
  '"' :: (field.1.toList.flatMap escapeChar ++ '"' :: ':' :: field.2.characters)

theorem characters_str (value : String) :
    (Json.str value).characters =
      '"' :: (value.toList.flatMap escapeChar ++ ['"']) := by
  simp [characters, text, quoted]

theorem itemTexts_eq_map (items : List Json) :
    itemTexts items = items.map text := by
  induction items with
  | nil => rfl
  | cons item rest inductionHypothesis =>
      rw [itemTexts, inductionHypothesis, List.map_cons]

theorem fieldTexts_eq_map (fields : List (String × Json)) :
    fieldTexts fields = fields.map fun field =>
      quoted field.1 ++ ":" ++ field.2.text := by
  induction fields with
  | nil => rfl
  | cons field rest inductionHypothesis =>
      rw [fieldTexts, inductionHypothesis, List.map_cons]

theorem characters_arr (items : List Json) :
    (Json.arr items).characters = '[' :: listed ']' (items.map characters) := by
  rw [← intercalate_append, characters, text, itemTexts_eq_map,
    String.toList_append, String.toList_append, String.toList_intercalate,
    List.map_map]
  rfl

theorem characters_obj (fields : List (String × Json)) :
    (Json.obj fields).characters =
      '\x7b' :: listed '\x7d' (fields.map fieldCharacters) := by
  have texts :
      (String.toList ∘ fun field : String × Json =>
        quoted field.1 ++ ":" ++ field.2.text) =
      fieldCharacters := by
    funext field
    simp [fieldCharacters, characters, quoted]
  rw [← intercalate_append, characters, text, fieldTexts_eq_map,
    String.toList_append, String.toList_append, String.toList_intercalate,
    List.map_map, texts]
  rfl

/-- The first character of the text of a tree, where it is the same for all
trees of its sort; numbers start with one of the characters of numbers. -/
def opening : Json → Option Char
  | .null => some 'n'
  | .bool true => some 't'
  | .bool false => some 'f'
  | .str _ => some '"'
  | .arr _ => some '['
  | .obj _ => some '\x7b'
  | _ => none

theorem characters_int (value : Int) :
    (Json.int value).characters = Number.integerText value := by
  simp [characters, text]

/-- The text of a finite double, as that of its shortest decimal with a sign. -/
theorem characters_float
    {value : Float}
    (finite : value.isFinite = true) :
    ∃ (negative : Bool) (decimal : Number.Decimal),
      (Json.float value).characters =
        if negative then '-' :: Number.decimalText decimal
        else Number.decimalText decimal := by
  obtain ⟨x, exact⟩ := Number.Exact.exists_ofFloat? finite
  exact ⟨x.negative, .shortest .toEven x, Number.text_document exact⟩

theorem isNumeral_of_mem_int {value : Int} :
    ∀ c ∈ (Json.int value).characters, Number.isNumeral c = true := by
  intro c member
  rw [characters_int] at member
  exact Number.isNumeral_of_mem_integerText member

theorem isNumeral_of_mem_float
    {value : Float}
    (finite : value.isFinite = true) :
    ∀ c ∈ (Json.float value).characters, Number.isNumeral c = true := by
  obtain ⟨negative, decimal, form⟩ := characters_float finite
  intro c member
  rw [form] at member
  split at member
  · rcases List.mem_cons.1 member with rfl | digit
    · rfl
    · exact Number.isNumeral_of_mem_decimalText digit
  · exact Number.isNumeral_of_mem_decimalText member

theorem exists_numeral_cons
    {text : List Char}
    (nonempty : text ≠ [])
    (numeral : ∀ c ∈ text, Number.isNumeral c = true) :
    ∃ c rest, text = c :: rest ∧
      (if Number.isNumeral c then none else some c) = none := by
  obtain ⟨c, rest, rfl⟩ := List.exists_cons_of_ne_nil nonempty
  exact ⟨c, rest, rfl, if_pos (numeral c List.mem_cons_self)⟩

/-- The first character of a text tells the sort of the tree. -/
theorem characters_eq_cons {tree : Json} (printable : tree.Printable) :
    ∃ c rest, tree.characters = c :: rest ∧
      (if Number.isNumeral c then none else some c) = tree.opening := by
  cases printable with
  | null => exact ⟨'n', _, rfl, rfl⟩
  | yes => exact ⟨'t', _, rfl, rfl⟩
  | no => exact ⟨'f', _, rfl, rfl⟩
  | int value =>
      refine exists_numeral_cons ?_ isNumeral_of_mem_int
      rw [characters_int, Number.integerText]
      split
      · simp
      · exact Nat.toDigits_ne_nil
  | float finite =>
      refine exists_numeral_cons ?_ (isNumeral_of_mem_float finite)
      obtain ⟨negative, decimal, form⟩ := characters_float finite
      obtain ⟨digit, rest, digits, _⟩ := Number.exists_decimalText_cons decimal
      rw [form, digits]
      split <;> simp
  | str value => exact ⟨'"', _, characters_str value, rfl⟩
  | arr each => exact ⟨'[', _, characters_arr _, rfl⟩
  | obj each => exact ⟨'\x7b', _, characters_obj _, rfl⟩

/-- No text of a tree starts with a closing bracket. -/
theorem characters_opens
    {tree : Json}
    (printable : tree.Printable) :
    ∃ c text, tree.characters = c :: text ∧ c ≠ ']' := by
  obtain ⟨c, text, form, opens⟩ := characters_eq_cons printable
  refine ⟨c, text, form, ?_⟩
  rintro rfl
  cases printable <;> cases opens

/-! ## Sorts of trees -/

/-- Whether a tree is a number. -/
def isNumber : Json → Bool
  | .int _ | .float _ => true
  | _ => false

/-- Two trees whose texts may start with the same character. -/
inductive SameSort : Json → Json → Prop
  | null : SameSort .null .null
  | bool (value : Bool) : SameSort (.bool value) (.bool value)
  | number {first second : Json} (isFirst : first.isNumber = true)
    (isSecond : second.isNumber = true) :
      SameSort first second
  | str (first second : String) : SameSort (.str first) (.str second)
  | arr (first second : List Json) : SameSort (.arr first) (.arr second)
  | obj (first second : List (String × Json)) : SameSort (.obj first)
    (.obj second)

theorem sameSort_of_append
    {first second : Json}
    (printable : first.Printable)
    (secondPrintable : second.Printable)
    {rest other : List Char}
    (same : first.characters ++ rest = second.characters ++ other) :
    SameSort first second := by
  obtain ⟨c, text, form, opens⟩ := characters_eq_cons printable
  obtain ⟨d, secondText, secondForm, secondOpens⟩ :=
    characters_eq_cons secondPrintable
  rw [form, secondForm] at same
  have openings : first.opening = second.opening := by
    rw [← opens, ← secondOpens, (List.cons.inj same).1]
  cases printable <;> cases secondPrintable <;>
    first
    | exact .null
    | exact .bool _
    | exact .number rfl rfl
    | exact .str _ _
    | exact .arr _ _
    | exact .obj _ _
    | cases openings

theorem isNumeral_of_mem_number
    {tree : Json}
    (isNumber : tree.isNumber = true)
    (printable : tree.Printable) :
    ∀ c ∈ tree.characters, Number.isNumeral c = true := by
  cases printable with
  | int value => exact isNumeral_of_mem_int
  | float finite => exact isNumeral_of_mem_float finite
  | null | yes | no | str | arr | obj => cases isNumber

/-- The text of a whole number is not that of a double. -/
theorem characters_int_ne_float
    (value : Int)
    {double : Float}
    (finite : double.isFinite = true) :
    (Json.int value).characters ≠ (Json.float double).characters := by
  obtain ⟨negative, decimal, form⟩ := characters_float finite
  obtain ⟨mark, member, marks⟩ := Number.exists_mark_mem_decimalText decimal
  rw [characters_int, form]
  intro same
  refine Number.not_mem_integerText marks value ?_
  rw [same]
  split
  · exact List.mem_cons_of_mem _ member
  · exact member

/-- Numbers are told apart by their texts. -/
theorem number_inj
    {first second : Json}
    (isFirst : first.isNumber = true)
    (isSecond : second.isNumber = true)
    (printable : first.Printable)
    (secondPrintable : second.Printable)
    (texts : first.characters = second.characters) :
    first = second := by
  cases printable with
  | int value =>
      cases secondPrintable with
      | int other =>
          rw [characters_int, characters_int] at texts
          rw [Number.integerText_inj texts]
      | float finite =>
          exact absurd texts (characters_int_ne_float value finite)
      | null | yes | no | str | arr | obj => cases isSecond
  | float finite =>
      cases secondPrintable with
      | int other =>
          exact absurd texts.symm (characters_int_ne_float other finite)
      | float otherFinite =>
          rw [Number.text_document_inj finite otherFinite
            (String.toList_inj.1 texts)]
      | null | yes | no | str | arr | obj => cases isSecond
  | null | yes | no | str | arr | obj => cases isFirst

/-! ## Unambiguous texts -/

theorem characters_str_inj
    {first second : String}
    {rest other : List Char}
    (same : (Json.str first).characters ++ rest =
      (Json.str second).characters ++ other) :
    first = second ∧ rest = other := by
  rw [characters_str, characters_str] at same
  have texts := (List.cons.inj same).2
  simp only [List.append_eq, List.append_assoc, List.singleton_append] at texts
  obtain ⟨characters, rests⟩ := escaped_inj texts
  exact ⟨String.toList_inj.1 characters, rests⟩

/-- A field is unambiguous if its value is. -/
theorem fieldCharacters_inj
    {first second : String × Json}
    {rest other : List Char}
    (values : first.2.characters ++ rest = second.2.characters ++ other →
      first.2 = second.2 ∧ rest = other)
    (same : fieldCharacters first ++ rest = fieldCharacters second ++ other) :
    first = second ∧ rest = other := by
  have texts := (List.cons.inj same).2
  simp only [List.append_eq, List.append_assoc, List.cons_append] at texts
  obtain ⟨names, tails⟩ := escaped_inj texts
  obtain ⟨value, rests⟩ := values (List.cons.inj tails).2
  exact ⟨Prod.ext (String.toList_inj.1 names) value, rests⟩

/-- The text of a tree is told from that of every printable tree, whatever
follows the two. -/
def Unambiguous (first : Json) : Prop :=
  first.Printable → ∀ ⦃second : Json⦄, second.Printable →
    ∀ ⦃rest other : List Char⦄, Closed rest →
    Closed other → first.characters ++ rest = second.characters ++ other →
      first = second ∧ rest = other

theorem unambiguous_number {first : Json} (isFirst : first.isNumber = true) :
    Unambiguous first := by
  intro printable second secondPrintable rest other closed otherClosed same
  cases sameSort_of_append printable secondPrintable same with
  | number _ isSecond =>
      obtain ⟨texts, rests⟩ :=
        numeral_inj (isNumeral_of_mem_number isFirst printable)
          (isNumeral_of_mem_number isSecond secondPrintable) closed
          otherClosed same
      exact ⟨number_inj isFirst isSecond printable secondPrintable texts, rests⟩
  | null | bool | str | arr | obj => cases isFirst

theorem unambiguous_str (value : String) : Unambiguous (.str value) := by
  intro printable second secondPrintable rest other _ _ same
  cases sameSort_of_append printable secondPrintable same with
  | str _ second =>
      obtain ⟨strings, rests⟩ := characters_str_inj same
      exact ⟨congrArg Json.str strings, rests⟩
  | number isFirst => cases isFirst

theorem unambiguous_arr
    {items : List Json}
    (unambiguous : ∀ item ∈ items, Unambiguous item) :
    Unambiguous (.arr items) := by
  intro printable second secondPrintable rest other _ _ same
  cases sameSort_of_append printable secondPrintable same with
  | number isFirst => cases isFirst
  | arr _ others =>
      cases printable with
      | arr each =>
          cases secondPrintable with
          | arr eachOther =>
              rw [characters_arr, characters_arr] at same
              obtain ⟨lists, rests⟩ := listed_inj (by decide) (by decide)
                (fun item member => characters_opens
                  ((List.mem_append.1 member).elim (each item)
                    (eachOther item)))
                (fun item member other otherMember =>
                  unambiguous item member (each item member)
                    (eachOther other otherMember))
                (List.cons.inj same).2
              exact ⟨congrArg Json.arr lists, rests⟩

theorem unambiguous_obj
    {fields : List (String × Json)}
    (unambiguous : ∀ field ∈ fields, Unambiguous field.2) :
    Unambiguous (.obj fields) := by
  intro printable second secondPrintable rest other _ _ same
  cases sameSort_of_append printable secondPrintable same with
  | number isFirst => cases isFirst
  | obj _ others =>
      cases printable with
      | obj each =>
          cases secondPrintable with
          | obj eachOther =>
              rw [characters_obj, characters_obj] at same
              obtain ⟨lists, rests⟩ := listed_inj (by decide) (by decide)
                (fun _ _ => ⟨'"', _, rfl, by decide⟩)
                (fun field member other otherMember _ _ closed otherClosed =>
                  fieldCharacters_inj (unambiguous field member
                    (each field member)
                    (eachOther other otherMember) closed otherClosed))
                (List.cons.inj same).2
              exact ⟨congrArg Json.obj lists, rests⟩

theorem unambiguous (first : Json) : Unambiguous first := by
  induction first using tree_induction with
  | null =>
      intro printable second secondPrintable rest other _ _ same
      cases sameSort_of_append printable secondPrintable same with
      | null => exact ⟨rfl, List.append_cancel_left same⟩
      | number isFirst => cases isFirst
  | bool value =>
      intro printable second secondPrintable rest other _ _ same
      cases sameSort_of_append printable secondPrintable same with
      | bool => exact ⟨rfl, List.append_cancel_left same⟩
      | number isFirst => cases isFirst
  | int value => exact unambiguous_number rfl
  | float value => exact unambiguous_number rfl
  | str value => exact unambiguous_str value
  | arr items inductionHypothesis => exact unambiguous_arr inductionHypothesis
  | obj fields inductionHypothesis => exact unambiguous_obj inductionHypothesis
  | unreadable => exact fun printable => by cases printable

/-- A printable tree is determined by its text. -/
theorem text_inj
    {first second : Json}
    (printable : first.Printable)
    (secondPrintable : second.Printable)
    (same : first.text = second.text) :
    first = second := by
  have closed : Closed [] := by simp [Closed]
  have texts : first.characters ++ [] = second.characters ++ [] := by
    simp [characters, same]
  exact (unambiguous first printable secondPrintable closed closed texts).1

end Json
end MotionScene
