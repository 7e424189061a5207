import MotionScene.Json.Record
import MotionScene.Text.Digit
import Std.Data.ExtTreeMap

/-!
# Identifiers

Owners are numbered within a document; numbers are never given out twice.  A
document itself has an identifier of 128 bits, written as 32 hexadecimal digits
in five groups.
-/

namespace MotionScene

/-- The number of an owner within its document. -/
structure OwnerId where
  number : Nat
deriving DecidableEq, Repr

namespace OwnerId

/-- The numbers of owners have sixty-four bits, so they lie below this one. -/
def limit : Nat := UInt64.size

instance : Ord OwnerId where
  compare a b := compare a.number b.number

instance : LT OwnerId where
  lt a b := a.number < b.number

instance (a b : OwnerId) : Decidable (a < b) :=
  inferInstanceAs (Decidable (a.number < b.number))

instance : LE OwnerId where
  le a b := a.number ≤ b.number

instance (a b : OwnerId) : Decidable (a ≤ b) :=
  inferInstanceAs (Decidable (a.number ≤ b.number))

theorem compare_def (a b : OwnerId) :
    compare a b = compare a.number b.number := rfl

instance : Std.TransOrd OwnerId where
  eq_swap {a b} := by
    simp only [compare_def]
    exact Std.OrientedOrd.eq_swap
  isLE_trans {a b c} := by
    simp only [compare_def]
    exact Std.TransOrd.isLE_trans

instance : Std.LawfulEqOrd OwnerId where
  compare_self {a} := by
    simp only [compare_def]
    exact Std.ReflOrd.compare_self
  eq_of_compare {a b} h := by
    cases a
    cases b
    exact congrArg OwnerId.mk (Std.LawfulEqOrd.eq_of_compare h)

/-- The owner's number after a number sign. -/
def describe (id : OwnerId) : String :=
  "#" ++ Nat.repr id.number

/-- An owner is stored as its bare number. -/
def toJson (id : OwnerId) : Json :=
  .ofNat id.number

/-- The owner of a number that fits 64 bits. -/
def ofJson? (tree : Json) : Option OwnerId :=
  tree.nat64?.map OwnerId.mk

end OwnerId

/-- A property, by its owner and its name. -/
structure PropertyAddress where
  owner : OwnerId
  property : String
deriving DecidableEq, Repr

namespace PropertyAddress

instance : Ord PropertyAddress where
  compare a b := (compare a.owner b.owner).then (compare a.property b.property)

theorem compare_def (a b : PropertyAddress) :
    compare a b =
      (compare a.owner b.owner).then (compare a.property b.property) := rfl

instance : Std.TransOrd PropertyAddress :=
  inferInstanceAs (Std.TransCmp
    (compareLex (compareOn PropertyAddress.owner)
      (compareOn PropertyAddress.property)))

instance : Std.LawfulEqOrd PropertyAddress where
  eq_of_compare {a b} h := by
    rw [compare_def, Ordering.then_eq_eq] at h
    cases a
    cases b
    exact congr
      (congrArg PropertyAddress.mk (Std.LawfulEqOrd.eq_of_compare h.1))
      (Std.LawfulEqOrd.eq_of_compare h.2)

/-- The owner's number and the property's name, with a point between. -/
def describe (address : PropertyAddress) : String :=
  address.owner.describe ++ "." ++ address.property

/-- An address is stored as a record. -/
def toJson (address : PropertyAddress) : Json :=
  .obj [("owner", address.owner.toJson), ("property", .str address.property)]

/-- The address of a record with both fields. -/
def ofJson? (tree : Json) : Option PropertyAddress := do
  match ← tree.record? ["owner", "property"] with
  | [owner, property] =>
    return ⟨← Json.required OwnerId.ofJson? owner,
      ← Json.required Json.string? property⟩
  | _ => none

end PropertyAddress

/-- The identifier of a document. -/
structure DocumentId where
  bits : BitVec 128
deriving DecidableEq, Repr

namespace DocumentId

/-- The identifier whose bits are all zero. -/
def nil : DocumentId := ⟨0⟩

/-! ## Text -/

/-- The last digits of a number in base 16, lower case, as many as asked for. -/
def hexDigits : Nat → Nat → List Char
  | 0, _ => []
  | count + 1, n => hexDigits count (n / 16) ++ [Digit.lowerHex (n % 16)]

/-- Digits in groups of 8, 4, 4, 4 and 12, with a hyphen between groups. -/
def grouped (digits : List Char) : List Char :=
  digits.take 8 ++ '-' :: ((digits.drop 8).take 4 ++ '-' ::
    ((digits.drop 12).take 4 ++
    '-' :: ((digits.drop 16).take 4 ++ '-' :: digits.drop 20)))

/-- The identifier in lower-case digits and five groups. -/
def text (id : DocumentId) : String :=
  String.ofList (grouped (hexDigits 32 id.bits.toNat))

/-- The identifier of 32 digits. -/
def ofDigits? (digits : List Char) : Option DocumentId :=
  if digits.length = 32 then
    (Digit.hexNumber? digits).map fun n => ⟨BitVec.ofNat 128 n⟩
  else none

/-- The digits of a text in five groups. -/
def ungrouped? (text : List Char) : Option (List Char) :=
  if text.length = 36 ∧ text[8]? = some '-' ∧ text[13]? = some '-' ∧
    text[18]? = some '-' ∧
      text[23]? = some '-' then
    some (text.take 8 ++ (text.drop 9).take 4 ++ (text.drop 14).take 4 ++
      (text.drop 19).take 4 ++ text.drop 24)
  else none

/-- The identifier of a text in five groups. -/
def ofGroups? (text : List Char) : Option DocumentId :=
  (ungrouped? text).bind ofDigits?

/-- What a text starts with when it is written as a name, in letters of any
case. -/
def nameMark : List Char :=
  "urn:uuid:".toList

/-- The identifier of a text: plain digits, five groups, or five groups in
braces or after the mark of a name. -/
def ofText? (text : String) : Option DocumentId :=
  let chars := text.toList
  match chars.length with
  | 32 => ofDigits? chars
  | 36 => ofGroups? chars
  | 38 =>
    if chars.head? = some '\x7b' ∧ chars.getLast? = some '\x7d' then
      ofGroups? ((chars.drop 1).take 36)
    else none
  | 45 =>
    if (chars.take 9).map Char.toLower = nameMark then ofGroups? (chars.drop 9)
    else none
  | _ => none

/-- An identifier is stored as hyphenated text. -/
def toJson (id : DocumentId) : Json :=
  .str id.text

/-- The identifier of a text in any of the accepted notations. -/
def ofJson? (tree : Json) : Option DocumentId :=
  tree.string?.bind ofText?

end DocumentId
end MotionScene
