import MotionScene.Proofs.Color
import MotionScene.Proofs.Document.Storing
import MotionScene.Proofs.Json.Finiteness

/-!
# Values that scripts read and write

The plain shape of a value does not tell its kind: null is an empty reference or
a trigger, an array a vector or a color, a whole number an integer, a double, an
option or a reference.  Where the kind is known nothing is lost: what is written
reads back.  Other trees are read as well, such as whole numbers for doubles and
texts for colors; the value is one that can be written, so it reads back from
then on.
-/

namespace MotionScene

/-! ## What can be read -/

namespace Json

variable {tree : Json}

theorem le_of_nat64? {n : Nat} (read : tree.nat64? = some n) :
    n ≤ greatestNumber := by
  obtain ⟨whole, _, read⟩ := Option.bind_eq_some_iff.1 read
  split at read
  · next range =>
    cases read
    rw [greatestNumber]
    omega
  · cases read

theorem eq_arr_of_pair?
    {α β : Type}
    {first : Json → Option α}
    {second : Json → Option β}
    {pair : α × β}
    (read : tree.pair? first second = some pair) :
    ∃ a b, tree = .arr [a, b] ∧ first a = some pair.1 ∧
      second b = some pair.2 := by
  unfold pair? at read
  split at read
  · next a b =>
    obtain ⟨x, isFirst, read⟩ := Option.bind_eq_some_iff.1 read
    obtain ⟨y, isSecond, same⟩ := Option.bind_eq_some_iff.1 read
    cases same
    exact ⟨a, b, rfl, isFirst, isSecond⟩
  · cases read

theorem Finite.items {items : List Json} (finite : (Json.arr items).Finite) :
    ∀ item ∈ items, item.Finite := by
  cases finite with
  | arr each => exact each

end Json

namespace Color

theorem isFinite_channel {byte : Nat} (small : byte < 256) :
    (channel byte).isFinite = true := by
  have every : ∀ byte < 256, (channel byte).isFinite = true := by decide +kernel
  exact every byte small

theorem isFinite_of_ofHex?
    {text : String}
    {color : Color}
    (read : ofHex? text = some color) :
    ∀ x ∈ color.components, x.isFinite = true := by
  obtain ⟨bytes, readable, channels⟩ := ofHex?_eq_some_iff.1 read
  rw [channels, List.forall_mem_map]
  exact fun byte member => isFinite_channel (readable.lt byte member)

end Color

namespace Value

variable {kind : ValueKind} {tree : Json} {value : Value}

/-- The parts of a value that have limits keep them: its doubles are finite, and
its numbers fit sixty-four bits. -/
structure Writable (value : Value) : Prop where
  finite : ∀ x ∈ value.doubles, x.isFinite = true
  fit : ∀ n ∈ value.numbers, n ≤ greatestNumber

theorem isFinite_of_plainColor?
    (finite : tree.Finite)
    {color : Color}
    (read : plainColor? tree = some color) :
    ∀ x ∈ color.components, x.isFinite = true := by
  unfold plainColor? at read
  split at read
  · exact Color.isFinite_of_ofHex? read
  · next r g b a =>
    obtain ⟨red, isRed, read⟩ := Option.bind_eq_some_iff.1 read
    obtain ⟨green, isGreen, read⟩ := Option.bind_eq_some_iff.1 read
    obtain ⟨blue, isBlue, read⟩ := Option.bind_eq_some_iff.1 read
    obtain ⟨alpha, isAlpha, same⟩ := Option.bind_eq_some_iff.1 read
    cases same
    have each := finite.items
    simp only [List.forall_mem_cons] at each
    obtain ⟨finiteRed, finiteGreen, finiteBlue, finiteAlpha, _⟩ := each
    simp [Color.components, finiteRed.float? isRed, finiteGreen.float? isGreen,
      finiteBlue.float? isBlue, finiteAlpha.float? isAlpha]
  · cases read

/-- A value is read as one of the kind that was asked for. -/
theorem kind_of_ofPlain? (read : ofPlain? kind tree = some value) :
    value.kind = kind := by
  cases kind with
  | trigger =>
      cases read
      rfl
  | _ =>
      obtain ⟨_, _, same⟩ := Option.map_eq_some_iff.1 read
      subst same
      rfl

/-- Whatever a value was read from, it can be written. -/
theorem writable_of_ofPlain?
    (finite : tree.Finite)
    (read : ofPlain? kind tree = some value) :
    value.Writable := by
  cases kind with
  | trigger =>
      cases read
      exact ⟨nofun, nofun⟩
  | bool | integer | string | integerVector =>
      obtain ⟨_, _, same⟩ := Option.map_eq_some_iff.1 read
      subst same
      exact ⟨nofun, nofun⟩
  | float =>
      obtain ⟨x, isFloat, same⟩ := Option.map_eq_some_iff.1 read
      subst same
      exact ⟨List.forall_mem_singleton.2 (finite.float? isFloat), nofun⟩
  | color =>
      obtain ⟨color, isColor, same⟩ := Option.map_eq_some_iff.1 read
      subst same
      exact ⟨isFinite_of_plainColor? finite isColor, nofun⟩
  | options =>
      obtain ⟨index, isIndex, same⟩ := Option.map_eq_some_iff.1 read
      subst same
      exact ⟨nofun, List.forall_mem_singleton.2 (Json.le_of_nat64? isIndex)⟩
  | reference =>
      obtain ⟨target, isTarget, same⟩ := Option.map_eq_some_iff.1 read
      subst same
      refine ⟨nofun, ?_⟩
      by_cases isNull : tree = .null
      · rw [isNull] at isTarget
        cases isTarget
        exact nofun
      · rw [Json.nullable?_of_ne_null isNull] at isTarget
        obtain ⟨id, isId, same⟩ := Option.map_eq_some_iff.1 isTarget
        subst same
        obtain ⟨number, isNumber, same⟩ := Option.map_eq_some_iff.1 isId
        subst same
        exact List.forall_mem_singleton.2 (Json.le_of_nat64? isNumber)
  | floatVector =>
      obtain ⟨⟨x, y⟩, isPair, same⟩ := Option.map_eq_some_iff.1 read
      subst same
      obtain ⟨a, b, rfl, isFirst, isSecond⟩ := Json.eq_arr_of_pair? isPair
      have each := finite.items
      simp only [List.forall_mem_cons] at each
      refine ⟨?_, nofun⟩
      simp [doubles, Point.doubles, each.1.float? isFirst,
        each.2.1.float? isSecond]

/-! ## What is written reads back -/

theorem plainColor?_components
    {color : Color}
    (finite : ∀ x ∈ color.components, x.isFinite = true) :
    plainColor? (.ofList .ofFloat color.components) = some color := by
  simp only [Color.components, List.forall_mem_cons] at finite
  simp [Color.components, Json.ofList, plainColor?, Json.float?_ofFloat, finite]

/-- A value that can be written reads back from its plain shape, once its kind
is known. -/
theorem ofPlain?_toPlain (writable : value.Writable) :
    ofPlain? value.kind value.toPlain = some value := by
  obtain ⟨finite, fit⟩ := writable
  cases value with
  | bool b => rfl
  | integer n => simp [ofPlain?, kind, toPlain, Json.int64?_int]
  | float x =>
      have finite : x.isFinite = true := finite x (List.mem_singleton_self x)
      simp [ofPlain?, kind, toPlain, Json.float?_ofFloat finite]
  | string s => rfl
  | color c => simp [ofPlain?, kind, toPlain, plainColor?_components finite]
  | options index =>
      have fits : index ≤ greatestNumber :=
        fit index (List.mem_singleton_self index)
      simp [ofPlain?, kind, toPlain, Json.nat64?_ofNat fits]
  | reference target =>
      simp [ofPlain?, kind, toPlain,
        OwnerId.nullable?_ofOption (number_le_of_mem fit)]
  | trigger => rfl
  | integerVector x y =>
      simp [ofPlain?, kind, toPlain, Json.pair?, Json.int64?_int]
  | floatVector p =>
      simp only [doubles, Point.doubles, List.forall_mem_cons] at finite
      simp [ofPlain?, kind, toPlain, Json.pair?, Json.float?_ofFloat, finite]

/-- Every value whose doubles are finite, and whose numbers fit sixty-four bits
as those of every document do, reads back from its plain shape.  Every value
that is read from a tree, in whatever shape, is of the kind that was asked for
and reads back from its own plain shape; the tree may be any one whose numbers a
text can hold. -/
theorem plain_lossless :
    (∀ value : Value, value.Writable →
      ofPlain? value.kind value.toPlain = some value) ∧
    ∀ (kind : ValueKind) (tree : Json) (value : Value), tree.Finite →
      ofPlain? kind tree = some value →
        value.kind = kind ∧ ofPlain? kind value.toPlain = some value := by
  refine ⟨fun value => ofPlain?_toPlain, fun kind tree value finite read => ?_⟩
  have sameKind := kind_of_ofPlain? read
  have again := ofPlain?_toPlain (writable_of_ofPlain? finite read)
  rw [sameKind] at again
  exact ⟨sameKind, again⟩

/-- A color with channels far out of their nominal range. -/
def glaring : Value :=
  color ⟨0.1, -0.0, 1e300, 5e-324⟩

/-- A glaring color, a whole number of sixty-four bits in the place of a double,
and a text in the place of a color. -/
theorem loose_lossless :
    glaring.Writable ∧ ofPlain? glaring.kind glaring.toPlain = some glaring ∧
      (∃ point, ofPlain? .floatVector
          (.arr [.int 18446744073709551615, .float (-0.5)]) =
          some (floatVector point) ∧
        ofPlain? .floatVector (floatVector point).toPlain =
          some (floatVector point)) ∧
      ∃ shade, ofPlain? .color (.str "#FF880080") = some (color shade) ∧
        ofPlain? .color (color shade).toPlain = some (color shade) := by
  obtain ⟨written, read⟩ := plain_lossless
  have writable : glaring.Writable := ⟨by decide +kernel, nofun⟩
  have finite :
      (Json.arr [.int 18446744073709551615, .float (-0.5)]).Finite := by
    refine .arr
      (List.forall_mem_cons.2
        ⟨.int (by decide), List.forall_mem_singleton.2 (.float ?_)⟩)
    decide +kernel
  obtain ⟨point, isPoint⟩ : ∃ point,
      ofPlain? .floatVector (.arr [.int 18446744073709551615, .float (-0.5)]) =
        some (floatVector point) :=
    ⟨_, rfl⟩
  obtain ⟨shade, isShade⟩ : ∃ shade,
      ofPlain? .color (.str "#FF880080") = some (color shade) :=
    ⟨_, rfl⟩
  exact ⟨writable, written glaring writable,
    ⟨point, isPoint, (read _ _ _ finite isPoint).2⟩,
    ⟨shade, isShade, (read _ _ _ (.str _) isShade).2⟩⟩

end Value
end MotionScene
