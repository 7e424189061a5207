import Mathlib.Data.List.Nodup
import MotionScene.Proofs.Number.Whole
import MotionScene.Proofs.Track.Keyframes
import MotionScene.Track.Evaluation

/-!
# What a track evaluates to

The search for a frame inside the range of a track always ends between two
neighbours that have the frame between them, whatever the order of the
keyframes.  So every look-up is in range, and a track whose keyframes fit it
gives values of its kind.  Where the keyframes ascend, the neighbours are the
last keyframe before the frame and the first one after it.
-/

namespace MotionScene
namespace Track

variable {track : Track} {first last k0 k1 : Keyframe}
  {keyframes before after : List Keyframe} {frame : Int32}

/-! ## Neighbours -/

/-- Wherever the keyframes stand, the search for a frame inside their range ends
between two neighbours that have the frame between them. -/
theorem countUpTo_inside
    (isFirst : keyframes.head? = some first)
    (isLast : keyframes.getLast? = some last)
    (behind : first.frame < frame)
    (ahead : frame < last.frame) :
    ∃ before k0 k1 after, keyframes = before ++ k0 :: k1 :: after ∧
      countUpTo keyframes frame = before.length + 1 ∧ k0.frame ≤ frame ∧
      frame < k1.frame := by
  have nonempty : 0 < keyframes.length := by
    rw [List.length_pos_iff]
    rintro rfl
    cases isFirst
  obtain ⟨-, bound, edge, next⟩ :=
    @halve_bracket (isPast keyframes frame) _ 0 _ (Nat.le_refl _) nonempty
  change landing keyframes frame < _ at bound
  change landing keyframes frame = 0 ∨
    isPast keyframes frame (landing keyframes frame) = false at edge
  change landing keyframes frame + 1 = _ ∨
    isPast keyframes frame (landing keyframes frame + 1) = true at next
  rw [Nat.zero_add] at bound next
  generalize isPosition : landing keyframes frame = position at bound edge next
  have low : keyframes[position].frame ≤ frame := by
    rcases edge with rfl | notPast
    · rw [List.head?_eq_getElem?, List.getElem?_eq_getElem bound] at isFirst
      cases isFirst
      exact Int32.le_of_lt behind
    · simpa [isPast, List.getElem?_eq_getElem bound] using notPast
  have inside : position + 1 < keyframes.length := by
    rcases Nat.lt_or_eq_of_le (Nat.succ_le_of_lt bound) with inside | isEnd
    · exact inside
    · rw [List.getLast?_eq_getElem?, ← isEnd, Nat.succ_sub_one,
        List.getElem?_eq_getElem bound] at isLast
      cases isLast
      exact absurd ahead (Int32.not_lt.2 low)
  have high : frame < keyframes[position + 1].frame := by
    rcases next with isEnd | passed
    · omega
    · simpa [isPast, List.getElem?_eq_getElem inside] using passed
  refine ⟨keyframes.take position, keyframes[position], keyframes[position + 1],
    keyframes.drop (position + 2), ?_, ?_, low, high⟩
  · rw [← List.drop_eq_getElem_cons inside, ← List.drop_eq_getElem_cons bound,
      List.take_append_drop]
  · simp only [countUpTo, isPosition,
      List.getElem?_eq_getElem bound, if_pos low]
    rw [List.length_take, Nat.min_eq_left bound.le]

theorem evaluate_eq
    (isFirst : track.keyframes.head? = some first)
    (isLast : track.keyframes.getLast? = some last) :
    track.evaluate frame =
      if frame ≤ first.frame then some first.value
      else if last.frame ≤ frame then some last.value
      else do
        let k0 ← track.keyframes[countUpTo track.keyframes frame - 1]?
        let k1 ← track.keyframes[countUpTo track.keyframes frame]?
        return if k0.frame = frame then
          k0.value else track.between k0 k1 frame := by
  simp only [evaluate, isFirst, isLast, Option.bind_eq_bind, Option.bind_some]
  split
  · rfl
  · split
    · rfl
    · congr 1
      funext k0
      congr 1
      funext k1
      split <;> rfl

/-- Inside its range a track has the value of the earlier neighbour at its
frame, and a value between the two neighbours elsewhere. -/
theorem evaluate_inside
    (isFirst : track.keyframes.head? = some first)
    (isLast : track.keyframes.getLast? = some last)
    (behind : first.frame < frame)
    (ahead : frame < last.frame) :
    ∃ before k0 k1 after, track.keyframes = before ++ k0 :: k1 :: after ∧
      countUpTo track.keyframes frame = before.length + 1 ∧ k0.frame ≤ frame ∧
      frame < k1.frame ∧
      track.evaluate frame =
        some (if k0.frame = frame then k0.value
          else track.between k0 k1 frame) := by
  obtain ⟨before, k0, k1, after, shape, count, low, high⟩ :=
    countUpTo_inside isFirst isLast behind ahead
  refine ⟨before, k0, k1, after, shape, count, low, high, ?_⟩
  have earlier : track.keyframes[before.length]? = some k0 := by
    rw [shape, List.getElem?_append_right (Nat.le_refl _), Nat.sub_self]
    rfl
  have later : track.keyframes[before.length + 1]? = some k1 := by
    rw [shape, List.getElem?_append_right (Nat.le_add_right _ _),
      Nat.add_sub_cancel_left]
    rfl
  rw [evaluate_eq isFirst isLast, if_neg (Int32.not_le.2 behind),
    if_neg (Int32.not_le.2 ahead), count, Nat.add_sub_cancel, earlier, later]
  rfl

theorem evaluate_cases
    (isFirst : track.keyframes.head? = some first)
    (isLast : track.keyframes.getLast? = some last)
    (frame : Int32) :
    frame ≤ first.frame ∧ track.evaluate frame = some first.value ∨
      last.frame ≤ frame ∧ track.evaluate frame = some last.value ∨
      first.frame < frame ∧ frame < last.frame := by
  rw [evaluate_eq isFirst isLast]
  by_cases early : frame ≤ first.frame
  · exact Or.inl ⟨early, if_pos early⟩
  · rw [if_neg early]
    by_cases late : last.frame ≤ frame
    · exact Or.inr (Or.inl ⟨late, if_pos late⟩)
    · exact Or.inr (Or.inr ⟨Int32.not_le.1 early, Int32.not_le.1 late⟩)

theorem exists_ends (nonempty : keyframes ≠ []) :
    ∃ first last, keyframes.head? = some first ∧
      keyframes.getLast? = some last :=
  ⟨keyframes.head nonempty, keyframes.getLast nonempty,
    List.head?_eq_some_head nonempty, List.getLast?_eq_some_getLast nonempty⟩

/-- A track has a value at every frame if it has keyframes. -/
theorem evaluate_eq_none_iff :
    track.evaluate frame = none ↔ track.keyframes = [] := by
  constructor
  · intro missing
    by_contra nonempty
    obtain ⟨first, last, isFirst, isLast⟩ := exists_ends nonempty
    rcases evaluate_cases isFirst isLast frame with
      ⟨_, found⟩ | ⟨_, found⟩ | ⟨behind, ahead⟩
    · simp [found] at missing
    · simp [found] at missing
    · obtain ⟨_, _, _, _, _, _, _, _, found⟩ :=
        evaluate_inside isFirst isLast behind ahead
      simp [found] at missing
  · intro empty
    rw [evaluate, empty]
    rfl

/-! ## Look-ups -/

theorem length_components (value : Value) :
    value.components.length = value.kind.componentCount := by
  cases value <;> rfl

/-- The slopes on one side of a keyframe; missing slopes are zero. -/
def slopes (side : Tangents → List Float) (count : Nat) (keyframe : Keyframe) :
    List Float :=
  (keyframe.tangents.map side).getD (List.replicate count 0.0)

/-- The cubic with every component looked up by its position, which fails where
one is out of range. -/
def hermiteAt? (kind : ValueKind) (k0 k1 : Keyframe) (span t : Float) :
    Option Value := do
  let count := k0.value.components.length
  let blended ← (List.range count).mapM fun i => do
    let start ← k0.value.components[i]?
    let startSlope ← (slopes Tangents.outgoing count k0)[i]?
    let stop ← k1.value.components[i]?
    let stopSlope ← (slopes Tangents.incoming count k1)[i]?
    return hermiteComponent span t start startSlope stop stopSlope
  return (Value.ofComponents? kind blended).getD k0.value

theorem mapM_hermiteComponent
    {starts startSlopes stops stopSlopes : List Float}
    (span t : Float)
    (sameSlopes : startSlopes.length = starts.length)
    (sameStops : stops.length = starts.length)
    (sameStopSlopes : stopSlopes.length = starts.length) :
    ((List.range starts.length).mapM fun i => do
      let start ← starts[i]?
      let startSlope ← startSlopes[i]?
      let stop ← stops[i]?
      let stopSlope ← stopSlopes[i]?
      return hermiteComponent span t start startSlope stop stopSlope) =
      some (hermiteComponents span t starts startSlopes stops stopSlopes) := by
  induction starts generalizing startSlopes stops stopSlopes with
  | nil => rfl
  | cons start starts inductionHypothesis =>
      obtain ⟨startSlope, startSlopes, rfl⟩ :=
        List.exists_cons_of_length_eq_add_one sameSlopes
      obtain ⟨stop, stops, rfl⟩ :=
        List.exists_cons_of_length_eq_add_one sameStops
      obtain ⟨stopSlope, stopSlopes, rfl⟩ :=
        List.exists_cons_of_length_eq_add_one sameStopSlopes
      simp only [List.length_cons, Nat.add_right_cancel_iff]
        at sameSlopes sameStops sameStopSlopes
      have rest := inductionHypothesis sameSlopes sameStops sameStopSlopes
      rw [List.length_cons, List.range_succ_eq_map, List.mapM_cons,
        List.mapM_map]
      simp only [List.getElem?_cons_zero, List.getElem?_cons_succ,
        Function.comp_def]
      rw [rest]
      rfl

/-- Between keyframes that fit the track every component is there. -/
theorem hermiteAt?_eq
    (checked : ∀ keyframe ∈ track.keyframes, track.check keyframe = .ok ())
    (member0 : k0 ∈ track.keyframes)
    (member1 : k1 ∈ track.keyframes)
    (span t : Float) :
    hermiteAt? track.kind k0 k1 span t =
      some (hermite track.kind k0 k1 span t) := by
  obtain ⟨kind0, tangents0⟩ := check_eq_ok_iff.1 (checked k0 member0)
  obtain ⟨kind1, tangents1⟩ := check_eq_ok_iff.1 (checked k1 member1)
  have count : k0.value.components.length = track.kind.componentCount := by
    rw [length_components, kind0]
  have stops : k1.value.components.length = k0.value.components.length := by
    rw [length_components, kind1, count]
  have startSlopes :
      (slopes Tangents.outgoing k0.value.components.length k0).length =
      k0.value.components.length := by
    rw [slopes]
    cases isTangents : k0.tangents with
    | none => simp
    | some tangents => simpa [count] using (tangents0 tangents isTangents).2
  have stopSlopes :
      (slopes Tangents.incoming k0.value.components.length k1).length =
      k0.value.components.length := by
    rw [slopes]
    cases isTangents : k1.tangents with
    | none => simp
    | some tangents => simpa [count] using (tangents1 tangents isTangents).1
  rw [hermiteAt?]
  simp only [mapM_hermiteComponent span t startSlopes stops stopSlopes]
  rfl

/-- Components make a value of the kind they are put together for, or
nothing. -/
theorem kind_getD_ofComponents?
    {kind : ValueKind}
    {value : Value}
    (fits : value.kind = kind)
    (parts : List Float) :
    ((Value.ofComponents? kind parts).getD value).kind = kind := by
  cases built : Value.ofComponents? kind parts with
  | none => exact fits
  | some other => exact Value.kind_ofComponents? built

theorem kind_between (fits : k0.value.kind = track.kind) :
    (track.between k0 k1 frame).kind = track.kind := by
  unfold between
  split
  · split
    · exact fits
    · unfold Value.lerp
      split
      · rw [kind_getD_ofComponents? rfl, fits]
      · exact fits
    · exact kind_getD_ofComponents? fits _
  · exact fits

/-- The value of a track whose keyframes fit it is of its kind. -/
theorem kind_of_evaluate
    (checked : ∀ keyframe ∈ track.keyframes, track.check keyframe = .ok ())
    {value : Value}
    (found : track.evaluate frame = some value) :
    value.kind = track.kind := by
  have fits : ∀ keyframe ∈ track.keyframes, keyframe.value.kind = track.kind :=
    fun keyframe member => (check_eq_ok_iff.1 (checked keyframe member)).1
  have nonempty : track.keyframes ≠ [] := by
    intro empty
    rw [evaluate_eq_none_iff.2 empty] at found
    cases found
  obtain ⟨first, last, isFirst, isLast⟩ := exists_ends nonempty
  rcases evaluate_cases isFirst isLast frame with
    ⟨_, same⟩ | ⟨_, same⟩ | ⟨behind, ahead⟩
  · cases same.symm.trans found
    exact fits first (List.mem_of_head? isFirst)
  · cases same.symm.trans found
    exact fits last (List.mem_of_getLast? isLast)
  · obtain ⟨before, k0, k1, after, shape, _, _, _, same⟩ :=
      evaluate_inside isFirst isLast behind ahead
    cases same.symm.trans found
    have fits0 := fits k0 (by simp [shape])
    split
    · exact fits0
    · exact kind_between fits0

/-- Every look-up of an evaluation is in range, whatever the order of the
keyframes, and there is a value of the track's kind unless there are no
keyframes. -/
theorem evaluate_in_range
    (checked : ∀ keyframe ∈ track.keyframes, track.check keyframe = .ok ())
    (frame : Int32) :
    (track.evaluate frame = none ↔ track.keyframes = []) ∧
      (∀ value, track.evaluate frame = some value → value.kind = track.kind) ∧
      (∀ first last, track.keyframes.head? = some first →
        track.keyframes.getLast? = some last →
        first.frame < frame → frame < last.frame →
        0 < countUpTo track.keyframes frame ∧
          countUpTo track.keyframes frame < track.keyframes.length) ∧
      ∀ k0 ∈ track.keyframes, ∀ k1 ∈ track.keyframes, ∀ span t,
        hermiteAt? track.kind k0 k1 span t =
          some (hermite track.kind k0 k1 span t) := by
  refine ⟨evaluate_eq_none_iff,
    fun value found => kind_of_evaluate checked found, ?_,
    fun k0 member0 k1 member1 span t =>
      hermiteAt?_eq checked member0 member1 span t⟩
  intro first last isFirst isLast behind ahead
  obtain ⟨before, k0, k1, after, shape, count, _⟩ :=
    countUpTo_inside isFirst isLast behind ahead
  rw [count, shape, List.length_append, List.length_cons, List.length_cons]
  omega

/-- A track whose keyframes are out of order and share a frame. -/
def scrambled : Track where
  target := ⟨⟨1⟩, "position"⟩
  kind := .floatVector
  interpolation := .smoothCubic
  keyframes := [⟨0, .floatVector ⟨0.0, 1.0⟩, none⟩,
    ⟨9, .floatVector ⟨2.0, 2.0⟩, some ⟨[0.5, 1.0], [0.0, 1.0]⟩⟩,
    ⟨3, .floatVector ⟨4.0, 0.5⟩, none⟩,
    ⟨3, .floatVector ⟨5.0, 1.5⟩, some ⟨[1.0, 1.0], [2.0, 0.0]⟩⟩,
    ⟨12, .floatVector ⟨6.0, 2.5⟩, none⟩]

theorem evaluate_in_range_scrambled :
    ¬ Ascends scrambled.keyframes ∧
      (∀ keyframe ∈ scrambled.keyframes, scrambled.check keyframe = .ok ()) ∧
      (∃ value, scrambled.evaluate 5 = some value ∧ value.kind = .floatVector) ∧
      0 < countUpTo scrambled.keyframes 5 ∧
      countUpTo scrambled.keyframes 5 < 5 := by
  have checked : ∀ keyframe ∈ scrambled.keyframes,
      scrambled.check keyframe = .ok () := by
    intro keyframe member
    simp only [scrambled, List.mem_cons, List.not_mem_nil, or_false] at member
    rcases member with rfl | rfl | rfl | rfl | rfl <;> rfl
  obtain ⟨missing, kind, neighbours, _⟩ := evaluate_in_range checked 5
  have found : scrambled.evaluate 5 ≠ none := fun none => by
    cases missing.1 none
  obtain ⟨value, isValue⟩ := Option.ne_none_iff_exists'.1 found
  refine ⟨by unfold Ascends; decide, checked,
    ⟨value, isValue, kind value isValue⟩, ?_⟩
  exact neighbours _ _ rfl rfl (by decide) (by decide)

/-! ## Neighbours found one after the other -/

/-- The last keyframe before a frame, found by going through all of them. -/
def lastBefore? (keyframes : List Keyframe) (frame : Int32) : Option Keyframe :=
  (keyframes.filter fun keyframe => keyframe.frame < frame).getLast?

/-- The first keyframe after a frame, found by going through all of them. -/
def firstAfter? (keyframes : List Keyframe) (frame : Int32) : Option Keyframe :=
  keyframes.find? fun keyframe => frame < keyframe.frame

theorem Ascends.first_le
    (ascends : Ascends keyframes)
    (isFirst : keyframes.head? = some first)
    {keyframe : Keyframe}
    (member : keyframe ∈ keyframes) :
    first.frame ≤ keyframe.frame := by
  obtain ⟨rest, rfl⟩ := List.head?_eq_some_iff.1 isFirst
  rcases List.mem_cons.1 member with rfl | member
  · exact Int32.le_refl _
  · exact Int32.le_of_lt ((List.pairwise_cons.1 ascends).1 keyframe member)

theorem Ascends.le_last
    (ascends : Ascends keyframes)
    (isLast : keyframes.getLast? = some last)
    {keyframe : Keyframe}
    (member : keyframe ∈ keyframes) :
    keyframe.frame ≤ last.frame := by
  obtain ⟨rest, rfl⟩ := List.getLast?_eq_some_iff.1 isLast
  rcases List.mem_append.1 member with member | isLast
  · exact Int32.le_of_lt
      ((ascends : Ascends (rest ++ last :: [])).around.1 keyframe member)
  · rw [List.mem_singleton.1 isLast]
    exact Int32.le_refl _

/-- Keyframes behind a keyframe are at later frames. -/
theorem Ascends.next_le
    (ascends : Ascends (before ++ k0 :: k1 :: after))
    {keyframe : Keyframe}
    (member : keyframe ∈ k1 :: after) :
    k1.frame ≤ keyframe.frame := by
  have tail : Ascends (k1 :: after) :=
    ascends.sublist
      ((List.sublist_cons_self k0 _).trans (List.sublist_append_right before _))
  exact tail.first_le rfl member

theorem Ascends.lastBefore?_eq
    (ascends : Ascends (before ++ k0 :: k1 :: after))
    (behind : k0.frame < frame)
    (ahead : frame < k1.frame) :
    lastBefore? (before ++ k0 :: k1 :: after) frame = some k0 := by
  have later : ∀ keyframe ∈ k1 :: after,
      ¬ decide (keyframe.frame < frame) = true := by
    intro keyframe member early
    exact Int32.lt_irrefl (Int32.lt_of_lt_of_le
      (Int32.lt_trans (of_decide_eq_true early) ahead) (ascends.next_le member))
  rw [lastBefore?, List.filter_append,
    List.filter_cons_of_pos (by simpa using behind),
    List.filter_eq_nil_iff.2 later, List.getLast?_append]
  rfl

theorem Ascends.firstAfter?_eq
    (ascends : Ascends (before ++ k0 :: k1 :: after))
    (behind : k0.frame < frame)
    (ahead : frame < k1.frame) :
    firstAfter? (before ++ k0 :: k1 :: after) frame = some k1 := by
  have earlier : ∀ keyframe ∈ before,
      ¬ decide (frame < keyframe.frame) = true := by
    intro keyframe member late
    have below := Int32.lt_trans (ascends.around.1 keyframe member) behind
    exact Int32.lt_asymm below (of_decide_eq_true late)
  rw [firstAfter?, List.find?_append, List.find?_eq_none.2 earlier,
    Option.none_or,
    List.find?_cons_of_neg (by simpa using Int32.le_of_lt behind),
    List.find?_cons_of_pos (by simpa using ahead)]

/-! ## Blending -/

/-- How many frames one keyframe is before another, counted without a bound. -/
def frameSpan (k0 k1 : Keyframe) : Float :=
  Number.ofInt (k1.frame.toInt - k0.frame.toInt)

/-- Which part of the way from one keyframe to another is done at a frame. -/
def progress (k0 k1 : Keyframe) (frame : Int32) : Float :=
  Number.ofInt (frame.toInt - k0.frame.toInt) / frameSpan k0 k1

/-- The difference of two frames as doubles is that of the frames as whole
numbers. -/
theorem frameFloat_sub (later earlier : Int32) :
    frameFloat later - frameFloat earlier =
      Number.ofInt (later.toInt - earlier.toInt) := by
  have lower := later.le_toInt
  have upper := later.toInt_lt
  have lowerEarlier := earlier.le_toInt
  have upperEarlier := earlier.toInt_lt
  exact Number.ofInt_sub_ofInt (by omega) (by omega) (by omega)

theorem between_eq :
    track.between k0 k1 frame =
      if track.kind.isInterpolable then
        match track.interpolation with
        | .step => k0.value
        | .linear => k0.value.lerp k1.value (progress k0 k1 frame)
        | .smoothCubic =>
          hermite track.kind k0 k1 (frameSpan k0 k1) (progress k0 k1 frame)
      else k0.value := by
  simp only [between, frameFloat_sub]
  rfl

/-- Keyframes that ascend have their own values at their frames. -/
theorem evaluate_keyed
    (ascends : Ascends track.keyframes)
    {keyframe : Keyframe}
    (member : keyframe ∈ track.keyframes) :
    track.evaluate keyframe.frame = some keyframe.value := by
  have sameFrame := List.inj_on_of_nodup_map ascends.nodup
  obtain ⟨first, last, isFirst, isLast⟩ :=
    exists_ends (List.ne_nil_of_mem member)
  rcases evaluate_cases isFirst isLast keyframe.frame with
    ⟨early, found⟩ | ⟨late, found⟩ | ⟨behind, ahead⟩
  · rw [found, sameFrame (List.mem_of_head? isFirst) member
      (Int32.le_antisymm (ascends.first_le isFirst member) early)]
  · rw [found, sameFrame (List.mem_of_getLast? isLast) member
      (Int32.le_antisymm late (ascends.le_last isLast member))]
  · obtain ⟨before, k0, k1, after, shape, _, low, high, found⟩ :=
      evaluate_inside isFirst isLast behind ahead
    have hit : k0.frame = keyframe.frame := by
      by_contra missed
      rw [shape] at ascends member
      rcases List.mem_append.1 member with isEarlier | isLater
      · exact absurd (ascends.around.1 keyframe isEarlier) (Int32.not_lt.2 low)
      · rcases List.mem_cons.1 isLater with rfl | isLater
        · exact missed rfl
        · exact absurd high (Int32.not_lt.2 (ascends.next_le isLater))
    rw [found, if_pos hit, sameFrame (by simp [shape]) member hit]

/-- From its last keyframe on, a track has the value of that keyframe. -/
theorem evaluate_of_last_le
    (ascends : Ascends track.keyframes)
    (isLast : track.keyframes.getLast? = some last)
    (late : last.frame ≤ frame) :
    track.evaluate frame = some last.value := by
  have isMember := List.mem_of_getLast? isLast
  obtain ⟨first, _, isFirst, _⟩ := exists_ends (List.ne_nil_of_mem isMember)
  rcases evaluate_cases isFirst isLast frame with
    ⟨early, found⟩ | ⟨_, found⟩ | ⟨_, ahead⟩
  · -- The only keyframe is both the first and the last one.
    have same := Int32.le_antisymm (ascends.first_le isFirst isMember)
      (Int32.le_trans late early)
    rw [found,
      List.inj_on_of_nodup_map ascends.nodup
        (List.mem_of_head? isFirst) isMember same]
  · exact found
  · exact absurd ahead (Int32.not_lt.2 late)

/-- The value of a track whose keyframes ascend, without any search: there is
none without keyframes, outside the keyed range it is that of the nearest end,
at a keyframe it is the keyframe's own, and elsewhere it is between the last
keyframe before the frame and the first one after it. -/
theorem evaluate_eq_plain
    (ascends : Ascends track.keyframes)
    (frame : Int32) :
    (track.evaluate frame = none ↔ track.keyframes = []) ∧
      (∀ first, track.keyframes.head? = some first → frame ≤ first.frame →
        track.evaluate frame = some first.value) ∧
      (∀ last, track.keyframes.getLast? = some last → last.frame ≤ frame →
        track.evaluate frame = some last.value) ∧
      (∀ keyframe ∈ track.keyframes, ∀ interpolation,
        { track with interpolation }.evaluate keyframe.frame =
          some keyframe.value) ∧
      ∀ first last, track.keyframes.head? = some first →
        track.keyframes.getLast? = some last →
        first.frame < frame → frame < last.frame →
        (∀ keyframe ∈ track.keyframes, keyframe.frame ≠ frame) →
        ∃ k0 k1, lastBefore? track.keyframes frame = some k0 ∧
          firstAfter? track.keyframes frame = some k1 ∧
          (track.interpolation = .step ∨ track.kind.isInterpolable = false →
            track.evaluate frame = some k0.value) ∧
          (track.interpolation = .linear → track.kind.isInterpolable = true →
            track.evaluate frame =
              some (k0.value.lerp k1.value (progress k0 k1 frame))) ∧
          (track.interpolation = .smoothCubic →
            track.kind.isInterpolable = true →
            track.evaluate frame =
              some
                (hermite track.kind k0 k1 (frameSpan k0 k1)
                  (progress k0 k1 frame))) := by
  refine ⟨evaluate_eq_none_iff, ?_, ?_, ?_, ?_⟩
  · intro first isFirst early
    obtain ⟨_, last, _, isLast⟩ :=
      exists_ends (List.ne_nil_of_mem (List.mem_of_head? isFirst))
    rw [evaluate_eq isFirst isLast, if_pos early]
  · intro last isLast late
    exact evaluate_of_last_le ascends isLast late
  · intro keyframe member interpolation
    exact @evaluate_keyed { track with interpolation } ascends keyframe member
  · intro first last isFirst isLast behind ahead unkeyed
    obtain ⟨before, k0, k1, after, shape, _, low, high, found⟩ :=
      evaluate_inside isFirst isLast behind ahead
    have missed : k0.frame ≠ frame := unkeyed k0 (by simp [shape])
    have below := Int32.lt_of_le_of_ne low missed
    rw [shape] at ascends ⊢
    rw [if_neg missed, between_eq] at found
    refine ⟨k0, k1, ascends.lastBefore?_eq below high,
      ascends.firstAfter?_eq below high, ?_, ?_, ?_⟩
    · rintro (isStep | isPlain)
      · rw [found, isStep, ite_self]
      · rw [found, isPlain]
        rfl
    · intro isLinear blends
      rw [found, isLinear, blends]
      rfl
    · intro isCubic blends
      rw [found, isCubic, blends]
      rfl

/-- A track over the whole range of frames. -/
def endToEnd : Track where
  target := ⟨⟨1⟩, "radius"⟩
  kind := .float
  interpolation := .smoothCubic
  keyframes := [⟨Int32.minValue, .float 2.0, none⟩,
    ⟨5, .float 3.0, some ⟨[0.5], [1.5]⟩⟩, ⟨Int32.maxValue, .float 1.0, none⟩]

theorem evaluate_eq_plain_endToEnd :
    Ascends endToEnd.keyframes ∧
      endToEnd.evaluate 0 =
        some (hermite .float ⟨Int32.minValue, .float 2.0, none⟩
        ⟨5, .float 3.0, some ⟨[0.5], [1.5]⟩⟩ (Number.ofInt 2147483653)
        (Number.ofInt 2147483648 / Number.ofInt 2147483653)) := by
  have ascends : Ascends endToEnd.keyframes := by
    unfold Ascends
    decide
  obtain ⟨k0, k1, isEarlier, isLater, _, _, cubic⟩ :=
    (evaluate_eq_plain ascends 0).2.2.2.2
      _ _ rfl rfl (by decide) (by decide) (by decide)
  cases isEarlier
  cases isLater
  exact ⟨ascends, cubic rfl rfl⟩

end Track
end MotionScene
