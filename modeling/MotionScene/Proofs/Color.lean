import Mathlib.Data.List.TakeWhile
import MotionScene.Color

/-!
# Colors in hexadecimal notation

The documented notation is three or four pairs of hexadecimal digits, with a
number sign before them or without.  More is read than that: any number of
signs, and pairs of a plus sign and a single digit.  A color that was read shows
the bytes of its pairs again.
-/

namespace MotionScene
namespace Color

/-! ## Digits -/

/-- A hexadecimal digit in either case and its value. -/
def HexDigit (digit : Char) (value : Nat) : Prop :=
  "0123456789abcdef".toList[value]? = some digit ∨
    "0123456789ABCDEF".toList[value]? = some digit

instance (digit : Char) (value : Nat) : Decidable (HexDigit digit value) :=
  inferInstanceAs (Decidable (_ ∨ _))

variable {digit : Char} {value : Nat}

theorem HexDigit.lt (isDigit : HexDigit digit value) : value < 16 := by
  rcases isDigit with lower | upper
  · exact (List.getElem?_eq_some_iff.1 lower).1
  · exact (List.getElem?_eq_some_iff.1 upper).1

/-- Digits of one range of characters have their place in that range as their
value. -/
theorem hexDigit_of_range
    {first last : Char}
    (offset : Nat)
    (every : ∀ place ≤ last.toNat - first.toNat,
      HexDigit (Char.ofNat (first.toNat + place)) (place + offset))
    (above : first ≤ digit)
    (below : digit ≤ last) :
    HexDigit digit (digit.toNat - first.toNat + offset) := by
  have lower : first.toNat ≤ digit.toNat := UInt32.le_iff_toNat_le.1 above
  have upper : digit.toNat ≤ last.toNat := UInt32.le_iff_toNat_le.1 below
  have found := every (digit.toNat - first.toNat) (by omega)
  rwa [Nat.add_sub_cancel' lower, Char.ofNat_toNat] at found

theorem hex?_eq_some_iff :
    Digit.hex? digit = some value ↔ HexDigit digit value := by
  constructor
  · intro read
    unfold Digit.hex? at read
    split at read
    · next range =>
      cases read
      exact hexDigit_of_range 0 (by decide) range.1 range.2
    · split at read
      · next range =>
        cases read
        exact hexDigit_of_range 10 (by decide) range.1 range.2
      · split at read
        · next range =>
          cases read
          exact hexDigit_of_range 10 (by decide) range.1 range.2
        · cases read
  · intro isDigit
    have lower : ∀ value < 16,
        ("0123456789abcdef".toList[value]?).bind Digit.hex? = some value := by
      decide
    have upper : ∀ value < 16,
        ("0123456789ABCDEF".toList[value]?).bind Digit.hex? = some value := by
      decide
    rcases isDigit with isLower | isUpper
    · have read := lower value (HexDigit.lt (.inl isLower))
      rwa [isLower] at read
    · have read := upper value (HexDigit.lt (.inr isUpper))
      rwa [isUpper] at read

theorem not_hexDigit_plus : ¬ HexDigit '+' value := by
  rw [← hex?_eq_some_iff]
  exact nofun

theorem not_hexDigit_numberSign : ¬ HexDigit '#' value := by
  rw [← hex?_eq_some_iff]
  exact nofun

/-! ## Pairs -/

/-- Two digits and the byte they stand for. -/
inductive DigitPair : Char → Char → Nat → Prop where
  | digits
      {first second : Char}
      {high low : Nat}
      (isHigh : HexDigit first high)
      (isLow : HexDigit second low) :
      DigitPair first second (16 * high + low)

/-- Two characters that are read as a byte: two digits, or a plus sign and a
digit. -/
inductive ReadPair : Char → Char → Nat → Prop where
  | plain {first second : Char} {byte : Nat}
    (pair : DigitPair first second byte) :
      ReadPair first second byte
  | signed {second : Char} {low : Nat} (isLow : HexDigit second low) :
    ReadPair '+' second low

variable {first second : Char} {byte : Nat}

theorem ReadPair.lt (pair : ReadPair first second byte) : byte < 256 := by
  cases pair with
  | plain pair =>
      obtain ⟨isHigh, isLow⟩ := pair
      have high := isHigh.lt
      have low := isLow.lt
      omega
  | signed isLow => exact isLow.lt.trans (by decide)

theorem ReadPair.ne_numberSign (pair : ReadPair first second byte) :
    first ≠ '#' := by
  cases pair with
  | plain pair =>
      obtain ⟨isHigh, _⟩ := pair
      rintro rfl
      exact not_hexDigit_numberSign isHigh
  | signed _ => decide

theorem bytePair?_eq_some_iff :
    bytePair? first second = some byte ↔ ReadPair first second byte := by
  constructor
  · intro read
    unfold bytePair? at read
    split at read
    · next high low isHigh isLow =>
      cases read
      exact .plain
        (.digits (hex?_eq_some_iff.1 isHigh) (hex?_eq_some_iff.1 isLow))
    · next low _ isLow =>
      split at read
      · next isPlus =>
        cases read
        subst isPlus
        exact .signed (hex?_eq_some_iff.1 isLow)
      · cases read
    · cases read
  · intro pair
    cases pair with
    | plain pair =>
        obtain ⟨isHigh, isLow⟩ := pair
        simp [bytePair?, hex?_eq_some_iff.2 isHigh, hex?_eq_some_iff.2 isLow]
    | signed isLow =>
        have noDigit : Digit.hex? '+' = none := rfl
        simp [bytePair?, noDigit, hex?_eq_some_iff.2 isLow]

/-! ## Texts -/

/-- A text is made of pairs, which stand for bytes. -/
inductive Spells (pair : Char → Char → Nat → Prop) :
    List Char → List Nat → Prop where
  | nil : Spells pair [] []
  | cons
      {first second : Char}
      {byte : Nat}
      {text : List Char}
      {bytes : List Nat}
      (stands : pair first second byte)
      (rest : Spells pair text bytes) :
      Spells pair (first :: second :: text) (byte :: bytes)

/-- A text in the documented notation: a number sign or none, and three or four
pairs of digits. -/
def Documented (text : List Char) (bytes : List Nat) : Prop :=
  ∃ digits, (text = digits ∨ text = '#' :: digits) ∧
    Spells DigitPair digits bytes ∧ (bytes.length = 3 ∨ bytes.length = 4)

/-- A text that is read: any number of number signs, and three or four pairs
that are read. -/
def Readable (text : List Char) (bytes : List Nat) : Prop :=
  ∃ signs digits, text = List.replicate signs '#' ++ digits ∧
    Spells ReadPair digits bytes ∧ (bytes.length = 3 ∨ bytes.length = 4)

/-- The four bytes of a color; without a fourth one it is fully opaque. -/
def fourBytes (bytes : List Nat) : List Nat :=
  if bytes.length = 3 then bytes ++ [255] else bytes

/-- The channel of a byte. -/
def channel (byte : Nat) : Float :=
  Number.ofInt byte / 255.0

variable {color : Color} {text : List Char} {bytes : List Nat}

theorem channelPair?_eq_some_iff {x : Float} :
    channelPair? first second = some x ↔
      ∃ byte, ReadPair first second byte ∧ channel byte = x := by
  have mapped :
      channelPair? first second = (bytePair? first second).map channel := by
    cases read : bytePair? first second <;> simp [channelPair?, channel, read]
  simp only [mapped, Option.map_eq_some_iff, bytePair?_eq_some_iff]

theorem channelPair?_of_pair (pair : ReadPair first second byte) :
    channelPair? first second = some (channel byte) :=
  channelPair?_eq_some_iff.2 ⟨byte, pair, rfl⟩

theorem eq_of_components
    {other : Color}
    (same : color.components = other.components) :
    color = other := by
  cases color
  cases other
  cases same
  rfl

theorem ofPairs?_eq_some_iff :
    ofPairs? text = some color ↔
      ∃ bytes, Spells ReadPair text bytes ∧
        (bytes.length = 3 ∨ bytes.length = 4) ∧
        color.components = (fourBytes bytes).map channel := by
  constructor
  · intro read
    unfold ofPairs? at read
    split at read
    · simp only [Option.bind_eq_bind, Option.bind_eq_some_iff,
        channelPair?_eq_some_iff, Option.pure_def, Option.some.injEq] at read
      obtain ⟨_, ⟨red, isRed, rfl⟩, _, ⟨green, isGreen, rfl⟩, _,
          ⟨blue, isBlue, rfl⟩, rfl⟩ := read
      exact ⟨[red, green, blue],
        .cons isRed (.cons isGreen (.cons isBlue .nil)), .inl rfl, rfl⟩
    · simp only [Option.bind_eq_bind, Option.bind_eq_some_iff,
        channelPair?_eq_some_iff, Option.pure_def, Option.some.injEq] at read
      obtain ⟨_, ⟨red, isRed, rfl⟩, _, ⟨green, isGreen, rfl⟩, _,
          ⟨blue, isBlue, rfl⟩,
        _, ⟨alpha, isAlpha, rfl⟩, rfl⟩ := read
      exact ⟨[red, green, blue, alpha],
        .cons isRed (.cons isGreen (.cons isBlue (.cons isAlpha .nil))),
        .inr rfl, rfl⟩
    · cases read
  · rintro ⟨bytes, spells, count, channels⟩
    match bytes, count with
    | [red, green, blue], _ =>
        obtain _ | ⟨isRed, _ | ⟨isGreen, _ | ⟨isBlue, _ | _⟩⟩⟩ := spells
        have same : color = ⟨channel red, channel green, channel blue, 1.0⟩ :=
          eq_of_components channels
        rw [same, ofPairs?, channelPair?_of_pair isRed,
          channelPair?_of_pair isGreen, channelPair?_of_pair isBlue]
        rfl
    | [red, green, blue, alpha], _ =>
        obtain _ |
            ⟨isRed, _ | ⟨isGreen, _ | ⟨isBlue, _ | ⟨isAlpha, _ | _⟩⟩⟩⟩ := spells
        have same :
            color = ⟨channel red, channel green, channel blue, channel alpha⟩ :=
          eq_of_components channels
        rw [same, ofPairs?, channelPair?_of_pair isRed,
          channelPair?_of_pair isGreen, channelPair?_of_pair isBlue,
          channelPair?_of_pair isAlpha]
        rfl

/-! ## Number signs -/

theorem afterSigns_eq_dropWhile (text : List Char) :
    afterSigns text = text.dropWhile (· = '#') := by
  induction text with
  | nil => rfl
  | cons c rest inductionHypothesis =>
      by_cases isSign : c = '#'
      · simp [afterSigns, isSign, inductionHypothesis]
      · simp [afterSigns, isSign]

theorem exists_replicate_afterSigns (text : List Char) :
    ∃ signs, text = List.replicate signs '#' ++ afterSigns text := by
  have signs : ∀ c ∈ text.takeWhile (· = '#'), c = '#' :=
    fun c member => by simpa using List.mem_takeWhile_imp member
  refine ⟨(text.takeWhile (· = '#')).length, ?_⟩
  rw [← List.eq_replicate_of_mem signs, afterSigns_eq_dropWhile,
    List.takeWhile_append_dropWhile]

/-- Number signs are passed over up to the first pair. -/
theorem afterSigns_replicate_append
    (signs : Nat)
    (spells : Spells ReadPair text bytes) :
    afterSigns (List.replicate signs '#' ++ text) = text := by
  induction signs with
  | zero =>
      cases spells with
      | nil => rfl
      | cons pair _ => exact if_neg pair.ne_numberSign
  | succ signs inductionHypothesis => exact inductionHypothesis

theorem ofHex?_eq_some_iff {text : String} :
    ofHex? text = some color ↔
      ∃ bytes, Readable text.toList bytes ∧
        color.components = (fourBytes bytes).map channel := by
  rw [ofHex?, ofPairs?_eq_some_iff]
  constructor
  · rintro ⟨bytes, spells, count, channels⟩
    obtain ⟨signs, shape⟩ := exists_replicate_afterSigns text.toList
    exact ⟨bytes, ⟨signs, _, shape, spells, count⟩, channels⟩
  · rintro ⟨bytes, ⟨signs, digits, shape, spells, count⟩, channels⟩
    rw [shape, afterSigns_replicate_append signs spells]
    exact ⟨bytes, spells, count, channels⟩

/-! ## Bytes -/

theorem Spells.lt (spells : Spells ReadPair text bytes) :
    ∀ byte ∈ bytes, byte < 256 := by
  induction spells with
  | nil => exact nofun
  | cons pair _ inductionHypothesis =>
      exact List.forall_mem_cons.2 ⟨pair.lt, inductionHypothesis⟩

theorem channelByte_channel {byte : Nat} (small : byte < 256) :
    channelByte (channel byte) = byte := by
  have every : ∀ byte < 256, channelByte (channel byte) = byte := by
    decide +kernel
  exact every byte small

theorem Readable.lt (readable : Readable text bytes) :
    ∀ byte ∈ fourBytes bytes, byte < 256 := by
  obtain ⟨_, _, _, spells, _⟩ := readable
  rw [fourBytes]
  split
  · exact List.forall_mem_append.2 ⟨spells.lt, by simp⟩
  · exact spells.lt

/-- A color shows the bytes it was read from. -/
theorem bytes_eq_of_components
    (readable : Readable text bytes)
    (channels : color.components = (fourBytes bytes).map channel) :
    color.bytes = fourBytes bytes := by
  rw [Color.bytes, channels, List.map_map]
  calc
    (fourBytes bytes).map (channelByte ∘ channel) = (fourBytes bytes).map id :=
      List.map_congr_left fun byte member =>
        channelByte_channel (readable.lt byte member)
    _ = fourBytes bytes := List.map_id _

/-! ## The documented notation -/

theorem Spells.readPair (spells : Spells DigitPair text bytes) :
    Spells ReadPair text bytes := by
  induction spells with
  | nil => exact .nil
  | cons pair _ inductionHypothesis =>
      exact .cons (.plain pair) inductionHypothesis

theorem Spells.hexDigit (spells : Spells DigitPair text bytes) :
    ∀ digit ∈ text, ∃ value, HexDigit digit value := by
  induction spells with
  | nil => exact nofun
  | cons pair _ inductionHypothesis =>
      obtain ⟨isHigh, isLow⟩ := pair
      rw [List.forall_mem_cons, List.forall_mem_cons]
      exact ⟨⟨_, isHigh⟩, ⟨_, isLow⟩, inductionHypothesis⟩

/-- Pairs that are read without a plus sign are pairs of digits. -/
theorem Spells.digitPair
    (spells : Spells ReadPair text bytes)
    (unsigned : '+' ∉ text) :
    Spells DigitPair text bytes := by
  induction spells with
  | nil => exact .nil
  | cons pair _ inductionHypothesis =>
      rw [List.mem_cons, List.mem_cons, not_or, not_or] at unsigned
      cases pair with
      | plain pair => exact .cons pair (inductionHypothesis unsigned.2.2)
      | signed _ => exact absurd rfl unsigned.1

/-- The documented texts are those that are read and have neither a plus sign
nor a second number sign. -/
theorem documented_iff :
    Documented text bytes ↔
      Readable text bytes ∧ '+' ∉ text ∧ ¬ ['#', '#'] <+: text := by
  constructor
  · rintro ⟨digits, shape, spells, count⟩
    have unsigned : '+' ∉ digits := by
      intro member
      obtain ⟨value, isDigit⟩ := spells.hexDigit _ member
      exact not_hexDigit_plus isDigit
    have unmarked : '#' ∉ digits := by
      intro member
      obtain ⟨value, isDigit⟩ := spells.hexDigit _ member
      exact not_hexDigit_numberSign isDigit
    rcases shape with rfl | rfl
    · refine ⟨⟨0, _, rfl, spells.readPair, count⟩, unsigned, ?_⟩
      rintro ⟨rest, rfl⟩
      exact unmarked List.mem_cons_self
    · refine ⟨⟨1, _, rfl, spells.readPair, count⟩, by simpa using unsigned, ?_⟩
      rintro ⟨rest, shape⟩
      obtain rfl := (List.cons.inj shape).2
      exact unmarked List.mem_cons_self
  · rintro ⟨⟨signs, digits, rfl, spells, count⟩, unsigned, single⟩
    have digitsUnsigned : '+' ∉ digits :=
      fun member => unsigned (List.mem_append_right _ member)
    refine ⟨digits, ?_, spells.digitPair digitsUnsigned, count⟩
    match signs with
    | 0 => exact .inl rfl
    | 1 => exact .inr rfl
    | more + 2 => exact absurd ⟨List.replicate more '#' ++ digits, rfl⟩ single

/-- A color is read from a text if and only if the text is three or four
readable pairs after any number of number signs; its channels are the bytes of
the pairs in order, the last one being 255 if there are three.  The documented
notation is the part of this without plus signs and with at most one number
sign. -/
theorem hex_notation (text : String) :
    (∀ color, ofHex? text = some color ↔
      ∃ bytes, Readable text.toList bytes ∧
        color.components = (fourBytes bytes).map channel ∧
        color.bytes = fourBytes bytes) ∧
    ∀ bytes, Documented text.toList bytes ↔
      Readable text.toList bytes ∧ '+' ∉ text.toList ∧
        ¬ ['#', '#'] <+: text.toList := by
  refine ⟨fun color => ofHex?_eq_some_iff.trans ?_, fun bytes => documented_iff⟩
  constructor
  · rintro ⟨bytes, readable, channels⟩
    exact ⟨bytes, readable, channels, bytes_eq_of_components readable channels⟩
  · rintro ⟨bytes, readable, channels, _⟩
    exact ⟨bytes, readable, channels⟩

/-- A second number sign and plus signs are passed over although the notation
has no place for them. -/
theorem undocumented_read :
    (∃ color, ofHex? "##FF8800" = some color ∧
      color.bytes = [255, 136, 0, 255]) ∧
      (∃ color, ofHex? "#+F+8+0" = some color ∧ color.bytes = [15, 8, 0, 255]) ∧
      ∀ bytes, ¬ Documented "##FF8800".toList bytes ∧
      ¬ Documented "#+F+8+0".toList bytes := by
  refine ⟨⟨_, rfl, by decide +kernel⟩, ⟨_, rfl, by decide +kernel⟩,
    fun bytes => ?_⟩
  rw [documented_iff, documented_iff]
  exact ⟨fun documented => documented.2.2 (by decide),
    fun documented => documented.2.1 (by decide)⟩

end Color
end MotionScene
