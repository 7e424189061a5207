import Mathlib.Algebra.Group.Nat.Defs
import MotionScene.Identifier

/-!
# Identifiers read back

A document identifier is written in thirty-two hexadecimal digits, and the
reader of its text gives the same identifier back.
-/

namespace MotionScene

namespace Digit

theorem hex?_lowerHex {n : Nat} (small : n < 16) :
    hex? (lowerHex n) = some n := by
  have every : ∀ n < 16, hex? (lowerHex n) = some n := by decide
  exact every n small

end Digit

namespace DocumentId

theorem length_hexDigits (count n : Nat) :
    (hexDigits count n).length = count := by
  induction count generalizing n with
  | zero => rfl
  | succ count inductionHypothesis =>
      rw [hexDigits, List.length_append, inductionHypothesis]; rfl

/-- The last digits of a number read as what the number leaves over from a power
of sixteen. -/
theorem hexNumber?_hexDigits (count n : Nat) :
    Digit.hexNumber? (hexDigits count n) = some (n % 16 ^ count) := by
  induction count generalizing n with
  | zero => simp [hexDigits, Digit.hexNumber?, Nat.mod_one]
  | succ count inductionHypothesis =>
      have first := inductionHypothesis (n / 16)
      rw [Digit.hexNumber?] at first
      rw [hexDigits, Digit.hexNumber?, List.foldlM_append, first]
      have step :
          16 * (n / 16 % 16 ^ count) + n % 16 = n % 16 ^ (count + 1) := by
        rw [Nat.pow_succ, Nat.mul_comm (16 ^ count) 16, Nat.mod_mul]
        omega
      simp [Digit.hex?_lowerHex (Nat.mod_lt n (by decide : 0 < 16)), step]

/-- Five groups of digits read as the digits without hyphens. -/
theorem ungrouped?_groups
    {first second third fourth fifth : List Char}
    (lengthFirst : first.length = 8)
    (lengthSecond : second.length = 4)
    (lengthThird : third.length = 4)
    (lengthFourth : fourth.length = 4)
    (lengthFifth : fifth.length = 12) :
    ungrouped?
        (first ++ '-' ::
          (second ++ '-' :: (third ++ '-' :: (fourth ++ '-' :: fifth)))) =
      some (first ++ second ++ third ++ fourth ++ fifth) := by
  rw [ungrouped?, if_pos]
  · simp (disch := omega) [List.drop_append, List.drop_eq_nil_of_le,
      lengthFirst, lengthSecond, lengthThird, lengthFourth]
  · simp [lengthFirst, lengthSecond, lengthThird, lengthFourth, lengthFifth]

theorem ungrouped?_grouped {digits : List Char} (length : digits.length = 32) :
    ungrouped? (grouped digits) = some digits := by
  have joined (start count : Nat) :
      (digits.drop start).take count ++ digits.drop (start + count) =
        digits.drop start := by
    rw [← List.drop_drop, List.take_append_drop]
  rw [grouped,
    ungrouped?_groups (by simp [length]) (by simp [length]) (by simp [length])
      (by simp [length]) (by simp [length])]
  simp only [List.append_assoc]
  rw [joined 16 4, joined 12 4, joined 8 4, List.take_append_drop]

theorem ofText?_text (id : DocumentId) : ofText? id.text = some id := by
  have length : (hexDigits 32 id.bits.toNat).length = 32 :=
    length_hexDigits 32 id.bits.toNat
  have number : id.bits.toNat % 16 ^ 32 = id.bits.toNat :=
    Nat.mod_eq_of_lt id.bits.isLt
  have groups : (grouped (hexDigits 32 id.bits.toNat)).length = 36 := by
    simp [grouped, length]
  simp only [ofText?, text, String.toList_ofList, groups]
  rw [ofGroups?, ungrouped?_grouped length, Option.bind_some, ofDigits?,
    if_pos length, hexNumber?_hexDigits, number]
  simp

end DocumentId
end MotionScene
