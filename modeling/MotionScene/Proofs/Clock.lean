import MotionScene.Proofs.Document.Restoring

/-!
# Playback and the range of the clock

A clock that stands within its range walks through it frame by frame, and then
starts over or stays.  It cannot start over from the greatest frame of all,
which is followed by itself and so never passed.

Setting the range keeps it in order, but a stored clock is loaded as it is.  The
time since the first frame is right as long as all frames lie so close together
that their differences fit 32 bits.
-/

namespace MotionScene
namespace Clock

variable {clock : Clock}

/-! ## Frames -/

theorem toInt_le_greatest (frame : Int32) : frame.toInt ≤ 2147483647 :=
  frame.toInt_le

theorem toInt_successor (frame : Int32) :
    (successor frame).toInt = min (frame.toInt + 1) 2147483647 := by
  have lowest : -2147483648 ≤ frame.toInt := frame.le_toInt
  have highest := toInt_le_greatest frame
  rw [successor]
  split
  · next greatest =>
    subst greatest
    rfl
  · next notGreatest =>
    have below : frame.toInt ≠ 2147483647 :=
      fun same => notGreatest (Int32.toInt_inj.1 same)
    rw [Int32.toInt_add, Int32.toInt_one,
      Int.bmod_eq_of_le (by omega) (by omega)]
    omega

theorem toInt_later (a b : Int32) :
    (later a b).toInt = max a.toInt b.toInt := by
  rw [later]
  split
  · next less =>
    rw [Int32.lt_iff_toInt_lt] at less
    omega
  · next notLess =>
    rw [Int32.lt_iff_toInt_lt] at notLess
    omega

theorem toInt_earlier (a b : Int32) :
    (earlier a b).toInt = min a.toInt b.toInt := by
  rw [earlier]
  split
  · next less =>
    rw [Int32.lt_iff_toInt_lt] at less
    omega
  · next notLess =>
    rw [Int32.lt_iff_toInt_lt] at notLess
    omega

/-! ## Playback -/

/-- The clock stands within its range. -/
structure Inside (clock : Clock) : Prop where
  first : clock.start.toInt ≤ clock.current.toInt
  last : clock.current.toInt ≤ clock.stop.toInt

/-- The clock goes back to its first frame after its last one. -/
def StartsOver (clock : Clock) : Prop :=
  clock.playMode = .repeat ∧ clock.stop.toInt ≠ 2147483647

instance (clock : Clock) : Decidable clock.StartsOver :=
  inferInstanceAs (Decidable (_ ∧ _))

theorem not_startsOver_of_stop (mode : clock.playMode = .stop) :
    ¬ clock.StartsOver := by
  rintro ⟨repeats, _⟩
  rw [mode] at repeats
  cases repeats

/-- The frame that a clock within its range shows after a number of steps. -/
def frameAfter (clock : Clock) (count : Nat) : Int :=
  if clock.StartsOver then
    clock.start.toInt + (clock.current.toInt - clock.start.toInt + count) %
      (clock.stop.toInt - clock.start.toInt + 1)
  else min (clock.current.toInt + count) clock.stop.toInt

theorem current_advance_of_lt
    (before : clock.current.toInt < clock.stop.toInt) :
    clock.advance.current.toInt = clock.current.toInt + 1 := by
  have highest := toInt_le_greatest clock.stop
  have next := toInt_successor clock.current
  have notPast : ¬ clock.stop < successor clock.current := by
    rw [Int32.lt_iff_toInt_lt]
    omega
  rw [advance]
  simp only [if_neg notPast]
  omega

theorem current_advance_of_eq (atEnd : clock.current.toInt = clock.stop.toInt) :
    clock.advance.current =
      if clock.StartsOver then clock.start else clock.stop := by
  have highest := toInt_le_greatest clock.stop
  have next := toInt_successor clock.current
  rw [advance]
  by_cases greatest : clock.stop.toInt = 2147483647
  · have notPast : ¬ clock.stop < successor clock.current := by
      rw [Int32.lt_iff_toInt_lt]
      omega
    have stays : successor clock.current = clock.stop :=
      Int32.toInt_inj.1 (by omega)
    have notOver : ¬ clock.StartsOver := fun startsOver => startsOver.2 greatest
    rw [if_neg notOver]
    simp only [if_neg notPast]
    exact stays
  · have past : clock.stop < successor clock.current := by
      rw [Int32.lt_iff_toInt_lt]
      omega
    simp only [if_pos past]
    match mode : clock.playMode with
    | .repeat => rw [if_pos ⟨mode, greatest⟩]
    | .stop => rw [if_neg (not_startsOver_of_stop mode)]

theorem Inside.advance (inside : clock.Inside) : clock.advance.Inside := by
  obtain ⟨first, last⟩ := inside
  rcases Int.lt_or_eq_of_le last with before | atEnd
  · have next := current_advance_of_lt before
    exact ⟨by rw [next]; exact le_trans first (by omega),
      by rw [next]; exact before⟩
  · have next := current_advance_of_eq atEnd
    have ordered : clock.start.toInt ≤ clock.stop.toInt := le_trans first last
    constructor <;> rw [next] <;> split
    · exact le_rfl
    · exact ordered
    · exact ordered
    · exact le_rfl

theorem frameAfter_zero (inside : clock.Inside) :
    clock.frameAfter 0 = clock.current.toInt := by
  obtain ⟨first, last⟩ := inside
  rw [frameAfter]
  split
  · rw [Int.natCast_zero, Int.add_zero, Int.emod_eq_of_lt (by omega) (by omega)]
    omega
  · omega

/-- What is shown after some steps does not depend on whether one of them was
taken already. -/
theorem frameAfter_advance (inside : clock.Inside) (count : Nat) :
    clock.advance.frameAfter count = clock.frameAfter (count + 1) := by
  have sameMode : clock.advance.StartsOver ↔ clock.StartsOver := Iff.rfl
  have sameStart : clock.advance.start = clock.start := rfl
  have sameStop : clock.advance.stop = clock.stop := rfl
  simp only [frameAfter, sameMode, sameStart, sameStop]
  rcases Int.lt_or_eq_of_le inside.last with before | atEnd
  · rw [current_advance_of_lt before]
    push_cast
    split
    · congr 2
      omega
    · omega
  · rw [current_advance_of_eq atEnd, atEnd]
    push_cast
    split
    · -- The whole range was passed once, which does not show in the remainder.
      have passed : clock.stop.toInt - clock.start.toInt + (count + 1 : Int) =
          (clock.start.toInt - clock.start.toInt + count) +
            (clock.stop.toInt - clock.start.toInt + 1) := by omega
      rw [passed, Int.add_emod_right]
    · omega

theorem current_iterate_advance (inside : clock.Inside) (count : Nat) :
    (advance^[count] clock).current.toInt = clock.frameAfter count := by
  induction count generalizing clock with
  | zero => exact (frameAfter_zero inside).symm
  | succ count inductionHypothesis =>
      rw [Function.iterate_succ_apply, inductionHypothesis inside.advance,
        frameAfter_advance inside]

/-- Playback within the range: a clock that stops walks up to its last frame and
stays there, and one that repeats goes around.  A range that ends with the
greatest frame is not started over. -/
theorem playback
    (first : clock.start ≤ clock.current)
    (last : clock.current ≤ clock.stop)
    (count : Nat) :
    (clock.playMode = .stop →
      (advance^[count] clock).current.toInt =
        min (clock.current.toInt + count) clock.stop.toInt) ∧
    (clock.playMode = .repeat → clock.stop ≠ Int32.maxValue →
      (advance^[count] clock).current.toInt =
        clock.start.toInt + (clock.current.toInt - clock.start.toInt + count) %
          (clock.stop.toInt - clock.start.toInt + 1)) ∧
    (clock.playMode = .repeat → clock.stop = Int32.maxValue →
      (advance^[count] clock).current.toInt =
        min (clock.current.toInt + count) clock.stop.toInt) := by
  have shown := current_iterate_advance
    ⟨Int32.le_iff_toInt_le.1 first, Int32.le_iff_toInt_le.1 last⟩ count
  have isGreatest : clock.stop = Int32.maxValue ↔
      clock.stop.toInt = 2147483647 :=
    Int32.toInt_inj.symm
  simp only [ne_eq, isGreatest, shown, frameAfter]
  refine ⟨fun mode => if_neg (not_startsOver_of_stop mode),
    fun mode notGreatest => if_pos ⟨mode, notGreatest⟩,
    fun _ greatest => if_neg ?_⟩
  exact fun startsOver => startsOver.2 greatest

/-- A clock in the middle of three frames. -/
def shortLoop (mode : PlayMode) : Clock :=
  ⟨1, 3, 2, 24.0, mode⟩

/-- A clock just before the greatest frame, which is the last one of its
range. -/
def endless : Clock :=
  ⟨0, 2147483647, 2147483646, 24.0, .repeat⟩

theorem playback_shortLoop :
    (advance^[4] (shortLoop .stop)).current.toInt = min (2 + 4) 3 ∧
      (advance^[4] (shortLoop .repeat)).current.toInt =
        1 + (2 - 1 + 4) % (3 - 1 + 1) ∧
      (advance^[4] endless).current.toInt = min (2147483646 + 4) 2147483647 :=
  ⟨(playback (by decide) (by decide) 4).1 rfl,
    (playback (by decide) (by decide) 4).2.1 rfl (by decide),
    (playback (by decide) (by decide) 4).2.2 rfl rfl⟩

/-- A range that ends with the greatest frame is not started over. -/
theorem endless_not_started_over :
    endless.start ≤ endless.current ∧ endless.current ≤ endless.stop ∧
      endless.playMode = .repeat ∧
      (advance^[2] endless).current.toInt ≠
        endless.start.toInt +
          (endless.current.toInt - endless.start.toInt + 2) %
          (endless.stop.toInt - endless.start.toInt + 1) := by
  decide

/-! ## The range -/

/-- What can be asked of a clock. -/
inductive Call where
  | setStart (frame : Int32)
  | setStop (frame : Int32)
  | setCurrent (frame : Int32)
  | setPlayMode (mode : PlayMode)
  | advance
deriving DecidableEq

/-- The clock after a call. -/
def perform (clock : Clock) : Call → Clock
  | .setStart frame => clock.setStart frame
  | .setStop frame => clock.setStop frame
  | .setCurrent frame => clock.setCurrent frame
  | .setPlayMode mode => clock.setPlayMode mode
  | .advance => clock.advance

/-- The clock after some calls. -/
def run (clock : Clock) (calls : List Call) : Clock :=
  calls.foldl perform clock

/-- The first frame of the range is not after the last one. -/
def Ordered (clock : Clock) : Prop :=
  clock.start.toInt ≤ clock.stop.toInt

instance (clock : Clock) : Decidable clock.Ordered :=
  inferInstanceAs (Decidable (_ ≤ _))

namespace Call

/-- Whether a call sets an end of the range. -/
def setsRange : Call → Bool
  | setStart _ | setStop _ => true
  | setCurrent _ | setPlayMode _ | advance => false

/-- The frame a call gives, if any, lies between two frames. -/
def Within (low high : Int32) : Call → Prop
  | setStart frame | setStop frame | setCurrent frame =>
    low.toInt ≤ frame.toInt ∧ frame.toInt ≤ high.toInt
  | setPlayMode _ | advance => True

end Call

theorem ordered_new (settings : AnimationSettings) :
    (new settings).Ordered := by
  rw [Ordered, new, toInt_later]
  exact le_max_right _ _

/-- A call that sets an end of the range brings it in order, and no other call
touches it. -/
theorem ordered_perform_iff {call : Call} :
    (clock.perform call).Ordered ↔ clock.Ordered ∨ call.setsRange = true := by
  cases call with
  | setStart frame =>
      refine iff_of_true ?_ (Or.inr rfl)
      rw [perform, setStart, Ordered, toInt_later]
      exact le_max_right _ _
  | setStop frame =>
      refine iff_of_true ?_ (Or.inr rfl)
      rw [perform, setStop, Ordered, toInt_earlier]
      exact min_le_right _ _
  | setCurrent _ | setPlayMode _ | advance =>
      simp [Ordered, perform, setCurrent, setPlayMode,
        Clock.advance, Call.setsRange]

theorem ordered_run_iff {calls : List Call} :
    (clock.run calls).Ordered ↔
      clock.Ordered ∨ ∃ call ∈ calls, call.setsRange = true := by
  induction calls generalizing clock with
  | nil => simp [run]
  | cons call rest inductionHypothesis =>
      change ((clock.perform call).run rest).Ordered ↔ _
      rw [inductionHypothesis, ordered_perform_iff,
        List.exists_mem_cons_iff, or_assoc]

/-! ## The time -/

/-- All frames of a clock lie between two frames. -/
structure Within (clock : Clock) (low high : Int32) : Prop where
  start : low.toInt ≤ clock.start.toInt ∧ clock.start.toInt ≤ high.toInt
  stop : low.toInt ≤ clock.stop.toInt ∧ clock.stop.toInt ≤ high.toInt
  current : low.toInt ≤ clock.current.toInt ∧ clock.current.toInt ≤ high.toInt

/-- The time is taken from the true number of frames since the first one. -/
def Exact (clock : Clock) : Prop :=
  (clock.current - clock.start).toInt = clock.current.toInt - clock.start.toInt

variable {low high : Int32}

theorem Within.advance (within : clock.Within low high) :
    clock.advance.Within low high := by
  obtain ⟨start, stop, current⟩ := within
  refine ⟨start, stop, ?_⟩
  have next := toInt_successor clock.current
  have greatest := toInt_le_greatest clock.current
  rw [Clock.advance]
  simp only
  split
  · split
    · exact start
    · exact stop
  · next notPast =>
    rw [Int32.lt_iff_toInt_lt] at notPast
    omega

theorem Within.perform
    {call : Call}
    (within : clock.Within low high)
    (given : call.Within low high) :
    (clock.perform call).Within low high := by
  have ⟨start, stop, current⟩ := within
  cases call with
  | setStart frame =>
      refine ⟨given, ?_, current⟩
      have later := toInt_later clock.stop frame
      simp only [Clock.perform, setStart, Call.Within] at given ⊢
      omega
  | setStop frame =>
      refine ⟨?_, given, current⟩
      have earlier := toInt_earlier clock.start frame
      simp only [Clock.perform, setStop, Call.Within] at given ⊢
      omega
  | setCurrent frame => exact ⟨start, stop, given⟩
  | setPlayMode mode => exact ⟨start, stop, current⟩
  | advance => exact within.advance

theorem Within.run
    {calls : List Call}
    (within : clock.Within low high)
    (given : ∀ call ∈ calls, call.Within low high) :
    (clock.run calls).Within low high := by
  induction calls generalizing clock with
  | nil => exact within
  | cons call rest inductionHypothesis =>
      rw [List.forall_mem_cons] at given
      exact inductionHypothesis (within.perform given.1) given.2

theorem exact_iff :
    clock.Exact ↔ -2147483648 ≤ clock.current.toInt - clock.start.toInt ∧
      clock.current.toInt - clock.start.toInt ≤ 2147483647 := by
  rw [Exact]
  constructor
  · intro exact
    rw [← exact]
    exact ⟨Int32.le_toInt _, Int32.toInt_le _⟩
  · rintro ⟨lower, upper⟩
    rw [Int32.toInt_sub]
    exact Int.bmod_eq_of_le (by omega) (by omega)

theorem seconds_eq (exact : clock.Exact) :
    clock.seconds =
      Number.ofInt (clock.current.toInt - clock.start.toInt) / clock.fps := by
  rw [seconds, exact]

/-- Frames that lie between two others can be told apart in time if and only if
the two are not too far apart. -/
theorem exact_run_iff (within : clock.Within low high) :
    (∀ calls : List Call, (∀ call ∈ calls, call.Within low high) →
      (clock.run calls).Exact) ↔ high.toInt - low.toInt ≤ 2147483647 := by
  constructor
  · intro exact
    have ordered : low.toInt ≤ high.toInt := within.start.1.trans within.start.2
    have widest := exact [.setStart low, .setCurrent high] (by
      rw [List.forall_mem_cons, List.forall_mem_singleton]
      exact ⟨⟨le_rfl, ordered⟩, ordered, le_rfl⟩)
    exact (exact_iff.1 widest).2
  · intro narrow calls given
    have ⟨start, _, current⟩ := within.run given
    rw [exact_iff]
    omega

/-! ## New and stored clocks -/

/-- Whether a document can be loaded does not depend on its clock, which is
taken as it was stored. -/
theorem ofSnapshot_withClock
    {snapshot : Snapshot}
    {settings : Settings}
    {document : Document}
    (loaded : Document.ofSnapshot snapshot settings = .ok document)
    (clock : Clock) :
    Document.ofSnapshot { snapshot with clock } settings =
      .ok { document with clock } := by
  obtain ⟨distinct, room, valid, rfl⟩ := Document.ofSnapshot_eq_ok_iff.1 loaded
  exact Document.ofSnapshot_eq_ok_iff.2 ⟨distinct, room, valid, rfl⟩

/-- The range of a new clock stays in order, and that of a stored clock does if
it was stored so or as soon as an end of it is set.  All calls with frames
between two given ones leave a clock whose time is right if and only if the two
are less than `2 ^ 31` frames apart. -/
theorem sound_of_calls
    (animation : AnimationSettings)
    (snapshot : Snapshot)
    (clock : Clock)
    (low high : Int32)
    (calls : List Call) :
    ((new animation).run calls).Ordered ∧
    (∀ (settings : Settings) (document : Document),
      Document.ofSnapshot snapshot settings = .ok document →
        ((document.clock.run calls).Ordered ↔
          snapshot.clock.Ordered ∨ ∃ call ∈ calls, call.setsRange = true)) ∧
    (clock.Within low high →
      ((∀ calls : List Call, (∀ call ∈ calls, call.Within low high) →
        (clock.run calls).Exact) ↔ high.toInt - low.toInt < 2 ^ 31)) ∧
    (clock.Exact →
      clock.seconds =
        Number.ofInt (clock.current.toInt - clock.start.toInt) /
          clock.fps) := by
  refine ⟨?_, fun settings document loaded => ?_, fun within => ?_, seconds_eq⟩
  · exact ordered_run_iff.2 (Or.inl (ordered_new animation))
  · obtain ⟨_, _, _, rfl⟩ := Document.ofSnapshot_eq_ok_iff.1 loaded
    exact ordered_run_iff
  · rw [exact_run_iff within]
    omega

/-- A clock whose first frame comes after its last one. -/
def disordered : Clock :=
  ⟨10, 5, 1, 24.0, .repeat⟩

theorem ofSnapshot_disordered :
    Document.ofSnapshot { Document.stored with clock := disordered } {} =
      .ok { Document.unchecked Document.stored {} with clock := disordered } :=
  ofSnapshot_withClock Document.ofSnapshot_stored disordered

/-- Calls that go from the least frame to the greatest. -/
def scrubbing : List Call :=
  [.setStart (-2147483648), .setCurrent 2147483647]

theorem sound_of_calls_scrubbing :
    ((new {}).run scrubbing).Ordered ∧ (disordered.run scrubbing).Ordered ∧
      (∀ calls : List Call, (∀ call ∈ calls, call.Within 1 100) →
        ((new {}).run calls).Exact) ∧
      (new {}).seconds =
        Number.ofInt ((1 : Int32).toInt - (1 : Int32).toInt) / 24.0 := by
  obtain ⟨ofNew, ofStored, ofFrames, ofExact⟩ :=
    sound_of_calls {} { Document.stored with clock := disordered }
      (new {}) 1 100 scrubbing
  refine ⟨ofNew, ?_, ?_, ofExact rfl⟩
  · exact (ofStored _ _ ofSnapshot_disordered).2
      (Or.inr ⟨_, List.mem_cons_self, rfl⟩)
  · exact (ofFrames (by constructor <;> decide)).2 (by decide)

/-- A stored clock may be out of order and stay so, and a new clock may be
brought to show a wrong time. -/
theorem disordered_inexact :
    (∃ document,
      Document.ofSnapshot { Document.stored with clock := disordered } {} =
        .ok document ∧ ¬ (document.clock.run [.advance]).Ordered) ∧
      ((new {}).run scrubbing).current.toInt -
        ((new {}).run scrubbing).start.toInt = 4294967295 ∧
      (((new {}).run scrubbing).current -
        ((new {}).run scrubbing).start).toInt = -1 := by
  refine ⟨⟨_, ofSnapshot_disordered, ?_⟩, ?_, ?_⟩
  · decide
  · decide
  · decide

end Clock
end MotionScene
