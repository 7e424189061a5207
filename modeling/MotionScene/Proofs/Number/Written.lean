import Mathlib.Data.List.TakeWhile
import MotionScene.Number.Layout
import MotionScene.Proofs.Number.Shortest

/-!
# Written doubles

The text of a finite double in a document is read here as a rational number,
which is the value of its shortest decimal.  So the text determines the double,
sign of zero included.
-/

namespace MotionScene
namespace Number

/-- Whether all characters are decimal digits. -/
def AllDigits (text : List Char) : Prop :=
  ∀ c ∈ text, c.isDigit = true

/-- The number of a text of digits with at most one point. -/
def pointedValue (text : List Char) : ℚ :=
  Nat.ofDigitChars 10 (text.filter (· ≠ '.')) 0 / 10 ^
    ((text.dropWhile (· ≠ '.')).length - 1)

/-- The power of ten that an exponent with its mark and sign stands for. -/
def markedPower : List Char → Int
  | 'e' :: '+' :: digits => Nat.ofDigitChars 10 digits 0
  | 'e' :: '-' :: digits => -(Nat.ofDigitChars 10 digits 0 : Int)
  | _ => 0

/-- The number of a text without sign. -/
def textValue (text : List Char) : ℚ :=
  pointedValue (text.takeWhile (· ≠ 'e')) * 10 ^
    markedPower (text.dropWhile (· ≠ 'e'))

/-! ## Digits -/

theorem allDigits_toDigits (n : Nat) : AllDigits (Nat.toDigits 10 n) :=
  fun _ member => Nat.isDigit_of_mem_toDigits (by decide) le_rfl member

theorem allDigits_append {first second : List Char} :
    AllDigits (first ++ second) ↔ AllDigits first ∧ AllDigits second :=
  List.forall_mem_append

theorem allDigits_replicate (count : Nat) :
    AllDigits (List.replicate count '0') := by
  intro c member
  rw [List.eq_of_mem_replicate member]
  rfl

theorem AllDigits.ne {text : List Char} (digits : AllDigits text) {mark : Char}
    (noDigit : mark.isDigit = false) : ∀ c ∈ text, c ≠ mark := by
  rintro c member rfl
  rw [digits c member] at noDigit
  cases noDigit

theorem pointedValue_plain {whole : List Char} (digits : AllDigits whole) :
    pointedValue whole = Nat.ofDigitChars 10 whole 0 := by
  have pointless := digits.ne (by decide : ('.' : Char).isDigit = false)
  rw [pointedValue, List.filter_eq_self.2 (by simpa using pointless),
    List.dropWhile_eq_nil_iff.2 (by simpa using pointless)]
  simp

theorem pointedValue_point
    {whole fraction : List Char}
    (wholeDigits : AllDigits whole)
    (fractionDigits : AllDigits fraction) :
    pointedValue (whole ++ '.' :: fraction) =
      Nat.ofDigitChars 10 (whole ++ fraction) 0 / 10 ^ fraction.length := by
  have wholePointless :=
    wholeDigits.ne (by decide : ('.' : Char).isDigit = false)
  have fractionPointless :=
    fractionDigits.ne (by decide : ('.' : Char).isDigit = false)
  have digits :
      (whole ++ '.' :: fraction).filter (· ≠ '.') = whole ++ fraction := by
    rw [List.filter_append, List.filter_cons_of_neg (by simp),
      List.filter_eq_self.2 (by simpa using wholePointless),
      List.filter_eq_self.2 (by simpa using fractionPointless)]
  have rest :
      (whole ++ '.' :: fraction).dropWhile (· ≠ '.') = '.' :: fraction := by
    rw [List.dropWhile_append_of_pos (by simpa using wholePointless),
      List.dropWhile_cons_of_neg (by simp)]
  rw [pointedValue, digits, rest]
  simp

theorem textValue_plain {text : List Char} (unmarked : ∀ c ∈ text, c ≠ 'e') :
    textValue text = pointedValue text := by
  rw [textValue, List.takeWhile_eq_self_iff.2 (by simpa using unmarked),
    List.dropWhile_eq_nil_iff.2 (by simpa using unmarked)]
  simp [markedPower]

theorem textValue_marked
    {text exponent : List Char}
    (unmarked : ∀ c ∈ text, c ≠ 'e') :
    textValue (text ++ 'e' :: exponent) =
      pointedValue text * 10 ^ markedPower ('e' :: exponent) := by
  rw [textValue, List.takeWhile_append_of_pos (by simpa using unmarked),
    List.dropWhile_append_of_pos (by simpa using unmarked),
    List.takeWhile_cons_of_neg (by simp), List.dropWhile_cons_of_neg (by simp),
    List.append_nil]

/-! ## Positional notation -/

/-- A positional text with a point, as its digits before the point and after
it. -/
theorem exists_positionalText
    {digits : List Char}
    (allDigits : AllDigits digits)
    (nonempty : digits ≠ [])
    (point : Int) :
    ∃ whole fraction,
      positionalText digits point true = whole ++ '.' :: fraction ∧
        AllDigits whole ∧ AllDigits fraction ∧ whole ≠ [] ∧
          (Nat.ofDigitChars 10 (whole ++ fraction) 0 : ℚ) / 10 ^
            fraction.length =
            Nat.ofDigitChars 10 digits 0 * 10 ^ (point - digits.length) := by
  unfold positionalText
  split
  · next small =>
      refine ⟨['0'], List.replicate (-point).toNat '0' ++ digits, rfl,
        by simp [AllDigits],
        allDigits_append.2 ⟨allDigits_replicate _, allDigits⟩, by simp, ?_⟩
      have power : point - digits.length =
          -((-point).toNat + digits.length : Nat) := by omega
      rw [power, zpow_neg, zpow_natCast, ← div_eq_mul_inv]
      simp [Nat.ofDigitChars_append, Nat.ofDigitChars_cons,
        Nat.ofDigitChars_replicate_zero]
  · next positive =>
      split
      · next inside =>
          refine ⟨digits.take point.toNat, digits.drop point.toNat, rfl,
            fun c member => allDigits c (List.mem_of_mem_take member),
            fun c member => allDigits c (List.mem_of_mem_drop member), ?_, ?_⟩
          · rw [Ne, List.take_eq_nil_iff]
            exact fun empty => empty.elim (by omega) nonempty
          · have power : point - digits.length =
                -(digits.length - point.toNat : Nat) := by omega
            rw [power, zpow_neg, zpow_natCast, ← div_eq_mul_inv,
              List.take_append_drop, List.length_drop]
      · next outside =>
          refine ⟨digits ++ List.replicate (point.toNat - digits.length) '0',
            ['0'], by simp,
            allDigits_append.2 ⟨allDigits, allDigits_replicate _⟩,
            by simp [AllDigits], by simp [nonempty], ?_⟩
          have power : point - digits.length =
              (point.toNat - digits.length : Nat) := by omega
          rw [power, zpow_natCast]
          simp [Nat.ofDigitChars_append, Nat.ofDigitChars_cons,
            Nat.ofDigitChars_replicate_zero]
          ring

theorem textValue_positionalText
    {digits : List Char}
    (allDigits : AllDigits digits)
    (nonempty : digits ≠ [])
    (point : Int) :
    textValue (positionalText digits point true) =
      Nat.ofDigitChars 10 digits 0 * 10 ^ (point - digits.length) := by
  obtain ⟨whole, fraction, form, wholeDigits, fractionDigits, _, value⟩ :=
    exists_positionalText allDigits nonempty point
  have unmarked : ∀ c ∈ whole ++ '.' :: fraction, c ≠ 'e' := by
    rw [List.forall_mem_append, List.forall_mem_cons]
    exact ⟨wholeDigits.ne (by decide), by decide, fractionDigits.ne (by decide)⟩
  rw [form, textValue_plain unmarked,
    pointedValue_point wholeDigits fractionDigits, value]

/-! ## Exponents -/

theorem mem_pointAfterFirst
    {digits : List Char}
    {c : Char}
    (member : c ∈ pointAfterFirst digits) :
    c = '.' ∨ c ∈ digits := by
  match digits with
  | [] => cases member
  | [digit] => exact Or.inr member
  | digit :: next :: rest =>
      simp only [pointAfterFirst, List.mem_cons] at member ⊢
      tauto

theorem pointedValue_pointAfterFirst
    {digits : List Char}
    (allDigits : AllDigits digits) :
    pointedValue (pointAfterFirst digits) =
      Nat.ofDigitChars 10 digits 0 / 10 ^ (digits.length - 1) := by
  match digits with
  | [] => simp [pointAfterFirst, pointedValue]
  | [digit] =>
      rw [pointAfterFirst, pointedValue_plain allDigits]
      simp
  | digit :: next :: rest =>
      have split : AllDigits ([digit] ++ (next :: rest)) := allDigits
      rw [allDigits_append] at split
      exact pointedValue_point split.1 split.2

theorem markedPower_integerText (power : Int) :
    markedPower
        ('e' :: ((if 0 ≤ power then ['+'] else []) ++ integerText power)) =
          power := by
  by_cases positive : 0 ≤ power
  · have natural : (power.natAbs : Int) = power := by omega
    simp [positive, integerText, markedPower, natural, not_lt.2 positive]
  · have negative : power < 0 := by omega
    simp [positive, integerText, markedPower, negative, abs_of_neg]

theorem textValue_exponentText
    {digits : List Char}
    (allDigits : AllDigits digits)
    (power : Int) :
    textValue (exponentText digits power) =
      Nat.ofDigitChars 10 digits 0 / 10 ^ (digits.length - 1) * 10 ^ power := by
  have unmarked : ∀ c ∈ pointAfterFirst digits, c ≠ 'e' := by
    intro c member
    rcases mem_pointAfterFirst member with rfl | digit
    · decide
    · exact allDigits.ne (by decide) c digit
  rw [exponentText, textValue_marked unmarked, markedPower_integerText,
    pointedValue_pointAfterFirst allDigits]

/-! ## Texts in documents -/

/-- The text of a decimal without sign, as documents hold it. -/
def decimalText (decimal : Decimal) : List Char :=
  if Layout.document.positional (decimal.point - 1) then
    positionalText decimal.digits decimal.point true
  else exponentText decimal.digits (decimal.point - 1)

theorem text_document
    {float : Float}
    {x : Exact}
    (exact : Exact.ofFloat? float = some x) :
    (text .document float).toList =
      if x.negative then '-' :: decimalText (.shortest .toEven x)
      else decimalText (.shortest .toEven x) := by
  simp only [text, exact, String.toList_ofList]
  rfl

/-- The text of a decimal stands for the value of the decimal. -/
theorem textValue_decimalText (decimal : Decimal) :
    textValue (decimalText decimal) = decimal.value := by
  have allDigits : AllDigits decimal.digits :=
    allDigits_toDigits decimal.coefficient
  have nonempty : decimal.digits ≠ [] := Nat.toDigits_ne_nil
  have coefficient :
      Nat.ofDigitChars 10 decimal.digits 0 = decimal.coefficient :=
    Nat.ofDigitChars_ten_toDigits
  have length : 0 < decimal.digits.length := List.length_pos_of_ne_nil nonempty
  unfold decimalText
  split
  · rw [textValue_positionalText allDigits nonempty, coefficient, Decimal.value,
      Decimal.point, add_sub_cancel_right]
  · have power : decimal.point - 1 =
        decimal.exponent + (decimal.digits.length - 1 : Nat) := by
      rw [Decimal.point]
      omega
    rw [textValue_exponentText allDigits, coefficient, Decimal.value, power,
      zpow_add₀ (by norm_num), zpow_natCast]
    field_simp

/-- The text of a decimal starts with a digit. -/
theorem exists_decimalText_cons (decimal : Decimal) :
    ∃ digit rest, decimalText decimal = digit :: rest ∧
      digit.isDigit = true := by
  have allDigits : AllDigits decimal.digits :=
    allDigits_toDigits decimal.coefficient
  have nonempty : decimal.digits ≠ [] := Nat.toDigits_ne_nil
  unfold decimalText
  split
  · obtain ⟨whole, fraction, form, wholeDigits, _, wholeNonempty, _⟩ :=
      exists_positionalText allDigits nonempty decimal.point
    obtain ⟨digit, rest, rfl⟩ := List.exists_cons_of_ne_nil wholeNonempty
    exact ⟨digit, rest ++ '.' :: fraction, form,
      wholeDigits digit List.mem_cons_self⟩
  · obtain ⟨digit, rest, digits⟩ := List.exists_cons_of_ne_nil nonempty
    have head : digit.isDigit = true := allDigits digit (by simp [digits])
    rw [digits]
    cases rest with
    | nil => exact ⟨digit, _, rfl, head⟩
    | cons next rest => exact ⟨digit, _, rfl, head⟩

/-- A sign is told from the digits that follow it. -/
theorem signed_inj
    {first second : Bool}
    {x y : Decimal}
    (same : (if first then '-' :: decimalText x else decimalText x) =
      if second then '-' :: decimalText y else decimalText y) :
    first = second ∧ decimalText x = decimalText y := by
  obtain ⟨digit, rest, textFirst, isDigit⟩ := exists_decimalText_cons x
  obtain ⟨other, others, textSecond, isOther⟩ := exists_decimalText_cons y
  rw [textFirst, textSecond] at same ⊢
  cases first <;> cases second <;>
    simp only [if_true, if_false, Bool.false_eq_true, List.cons.injEq, true_and]
      at same ⊢
  · exact same
  · rw [same.1] at isDigit
    cases isDigit
  · rw [← same.1] at isOther
    cases isOther
  · exact same

/-- Two finite doubles with one text are the same double. -/
theorem text_document_inj
    {first second : Float}
    (firstFinite : first.isFinite = true)
    (secondFinite : second.isFinite = true)
    (same : text .document first = text .document second) :
    first = second := by
  obtain ⟨x, exactFirst⟩ := Exact.exists_ofFloat? firstFinite
  obtain ⟨y, exactSecond⟩ := Exact.exists_ofFloat? secondFinite
  have texts := congrArg String.toList same
  rw [text_document exactFirst, text_document exactSecond] at texts
  obtain ⟨negative, decimals⟩ := signed_inj texts
  have values : (Decimal.shortest .toEven x).value =
      (Decimal.shortest .toEven y).value := by
    rw [← textValue_decimalText, decimals, textValue_decimalText]
  obtain ⟨mantissa, exponent⟩ :=
    Decimal.eq_of_value_shortest (Exact.normal_of_ofFloat? exactFirst)
      (Exact.normal_of_ofFloat? exactSecond) values
  have equal : x = y := by
    cases x
    cases y
    cases negative
    cases mantissa
    cases exponent
    rfl
  subst equal
  exact Exact.ofFloat?_inj exactFirst exactSecond

/-! ## Characters of numbers -/

/-- The characters numbers are written with. -/
def isNumeral (c : Char) : Bool :=
  c.isDigit || c == '-' || c == '+' || c == '.' || c == 'e'

theorem AllDigits.isNumeral {text : List Char} (digits : AllDigits text) :
    ∀ c ∈ text, isNumeral c = true := by
  intro c member
  simp [Number.isNumeral, digits c member]

theorem isNumeral_of_mem_integerText
    {n : Int}
    {c : Char}
    (member : c ∈ integerText n) :
    isNumeral c = true := by
  unfold integerText at member
  split at member
  · rcases List.mem_cons.1 member with rfl | digit
    · rfl
    · exact (allDigits_toDigits _).isNumeral c digit
  · exact (allDigits_toDigits _).isNumeral c member

theorem isNumeral_of_mem_decimalText
    {decimal : Decimal}
    {c : Char}
    (member : c ∈ decimalText decimal) :
    isNumeral c = true := by
  have allDigits : AllDigits decimal.digits :=
    allDigits_toDigits decimal.coefficient
  unfold decimalText at member
  split at member
  · obtain ⟨whole, fraction, form, wholeDigits, fractionDigits, _⟩ :=
      exists_positionalText allDigits Nat.toDigits_ne_nil decimal.point
    rw [form, List.mem_append, List.mem_cons] at member
    rcases member with digit | rfl | digit
    · exact wholeDigits.isNumeral c digit
    · rfl
    · exact fractionDigits.isNumeral c digit
  · rw [exponentText, List.mem_append, List.mem_cons, List.mem_append] at member
    rcases member with mantissa | rfl | sign | power
    · rcases mem_pointAfterFirst mantissa with rfl | digit
      · rfl
      · exact allDigits.isNumeral c digit
    · rfl
    · split at sign
      · rw [List.mem_singleton.1 sign]
        rfl
      · cases sign
    · exact isNumeral_of_mem_integerText power

/-- A double shows that it is no whole number: its text has a point or the mark
of an exponent. -/
theorem exists_mark_mem_decimalText (decimal : Decimal) :
    ∃ mark ∈ decimalText decimal, mark = '.' ∨ mark = 'e' := by
  unfold decimalText
  split
  · obtain ⟨whole, fraction, form, _⟩ := exists_positionalText
      (allDigits_toDigits decimal.coefficient) Nat.toDigits_ne_nil decimal.point
    exact ⟨'.', by simp [Decimal.digits, form], Or.inl rfl⟩
  · exact ⟨'e', by simp [exponentText], Or.inr rfl⟩

theorem not_mem_integerText
    {mark : Char}
    (marks : mark = '.' ∨ mark = 'e')
    (n : Int) :
    mark ∉ integerText n := by
  have noDigit : mark.isDigit = false := by rcases marks with rfl | rfl <;> rfl
  have noSign : mark ≠ '-' := by rcases marks with rfl | rfl <;> decide
  have digits := (allDigits_toDigits n.natAbs).ne noDigit
  intro member
  unfold integerText at member
  split at member
  · rcases List.mem_cons.1 member with sign | digit
    · exact noSign sign
    · exact digits mark digit rfl
  · exact digits mark member rfl

theorem toDigits_inj
    {first second : Nat}
    (same : Nat.toDigits 10 first = Nat.toDigits 10 second) :
    first = second := by
  rw [← Nat.ofDigitChars_ten_toDigits (n := first), same,
    Nat.ofDigitChars_ten_toDigits]

theorem minus_cons_ne_toDigits (text : List Char) (n : Nat) :
    '-' :: text ≠ Nat.toDigits 10 n := by
  intro same
  have sign : ('-' : Char).isDigit = true :=
    allDigits_toDigits n '-' (by simp [← same])
  cases sign

theorem integerText_inj
    {first second : Int}
    (same : integerText first = integerText second) :
    first = second := by
  unfold integerText at same
  split at same <;> split at same
  · have natural := toDigits_inj (List.cons.inj same).2
    omega
  · exact absurd same (minus_cons_ne_toDigits _ _)
  · exact absurd same.symm (minus_cons_ne_toDigits _ _)
  · have natural := toDigits_inj same
    omega

end Number
end MotionScene
