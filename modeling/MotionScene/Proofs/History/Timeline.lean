import MotionScene.Proofs.Command.Entry
import MotionScene.Proofs.History.Log

/-!
# Timelines

A timeline lists the scenes that a history can go back and forth between, and
says where the present one stands.  The entries of the history lead from each of
these scenes to the next, and the open groups lead from the present one to the
scene of the document.
-/

namespace MotionScene

/-- Scenes in the order in which they came about, and the place of the present
one. -/
structure Timeline where
  states : List Scene
  cursor : Nat

namespace Timeline

/-- The timeline of a scene without a history. -/
def start (scene : Scene) : Timeline :=
  ⟨[scene], 0⟩

/-- The latest states, as many as a bounded number of entries can reach; zero
keeps all. -/
def keep (limit : Nat) (states : List Scene) : List Scene :=
  if limit = 0 then states else states.drop (states.length - (limit + 1))

/-- The timeline with a new present state after the one before; what came later
is lost. -/
def record (timeline : Timeline) (limit : Nat) (scene : Scene) : Timeline :=
  let states :=
    keep limit (timeline.states.take (timeline.cursor + 1) ++ [scene])
  ⟨states, states.length - 1⟩

/-- The timeline one state earlier. -/
def back (timeline : Timeline) : Timeline :=
  { timeline with cursor := timeline.cursor - 1 }

/-- The timeline one state later, if there is one. -/
def forth (timeline : Timeline) : Timeline :=
  { timeline with
    cursor := min (timeline.cursor + 1) (timeline.states.length - 1) }

section Cursor

variable {timeline : Timeline} {count : Nat}

theorem back_of_zero (first : timeline.cursor = 0) :
    timeline.back = timeline := by
  obtain ⟨states, cursor⟩ := timeline
  obtain rfl := first
  rfl

theorem back_of_succ (isNext : timeline.cursor = count + 1) :
    timeline.back = { timeline with cursor := count } := by
  rw [back, isNext, Nat.add_sub_cancel]

theorem forth_of_last (last : timeline.states.length = timeline.cursor + 1) :
    timeline.forth = timeline := by
  rw [forth, last, Nat.add_sub_cancel, Nat.min_eq_right (Nat.le_succ _)]

theorem forth_of_lt (inside : timeline.cursor + 1 < timeline.states.length) :
    timeline.forth = { timeline with cursor := timeline.cursor + 1 } := by
  rw [forth, Nat.min_eq_left (by omega)]

end Cursor

theorem mem_of_mem_keep {limit : Nat} {states : List Scene} {state : Scene}
    (member : state ∈ keep limit states) : state ∈ states := by
  rw [keep] at member
  split at member
  · exact member
  · exact List.mem_of_mem_drop member

/-- The latest state is always kept. -/
theorem getLast?_keep (limit : Nat) (states : List Scene) (scene : Scene) :
    (keep limit (states ++ [scene])).getLast? = some scene := by
  rw [keep]
  split
  · exact List.getLast?_concat
  · have some_kept :
        ¬ (states ++ [scene]).length ≤
          (states ++ [scene]).length - (limit + 1) := by
      rw [List.length_append, List.length_singleton]
      omega
    rw [List.getLast?_drop, if_neg some_kept, List.getLast?_concat]

end Timeline

/-! ## Entries that lead through states -/

namespace Entry

/-- Entries lead through states, each from one to the next. -/
structure Pass (entries : List (Entry Edit)) (states : List Scene) : Prop where
  length : states.length = entries.length + 1
  leads : ∀ {index : Nat} {before after : Scene} {entry : Entry Edit},
    states[index]? = some before → states[index + 1]? = some after →
      entries[index]? = some entry → entry.Leads before after

namespace Pass

variable {entries : List (Entry Edit)} {states : List Scene}

theorem single (scene : Scene) : Pass [] [scene] :=
  ⟨rfl, fun _ _ isEntry => by cases isEntry⟩

theorem take (pass : Pass entries states) (count : Nat) :
    Pass (entries.take count) (states.take (count + 1)) := by
  constructor
  · rw [List.length_take, List.length_take, pass.length]
    omega
  · intro index before after entry isBefore isAfter isEntry
    rw [List.getElem?_take, Option.ite_none_right_eq_some]
      at isBefore isAfter isEntry
    exact pass.leads isBefore.2 isAfter.2 isEntry.2

theorem drop
    (pass : Pass entries states)
    {count : Nat}
    (few : count ≤ entries.length) :
    Pass (entries.drop count) (states.drop count) := by
  constructor
  · rw [List.length_drop, List.length_drop, pass.length]
    omega
  · intro index before after entry isBefore isAfter isEntry
    rw [List.getElem?_drop] at isBefore isAfter isEntry
    exact pass.leads isBefore isAfter isEntry

/-- One more entry leads on from the last state. -/
theorem snoc
    (pass : Pass entries states)
    {before after : Scene}
    (last : states[entries.length]? = some before)
    {entry : Entry Edit}
    (leads : entry.Leads before after) :
    Pass (entries ++ [entry]) (states ++ [after]) := by
  constructor
  · rw [List.length_append, List.length_append, pass.length]
    rfl
  · intro index first second other isFirst isSecond isEntry
    rcases Nat.lt_trichotomy index entries.length with inside | rfl | outside
    · have bound := pass.length
      rw [List.getElem?_append_left (by omega)] at isFirst isSecond isEntry
      exact pass.leads isFirst isSecond isEntry
    · have bound := pass.length
      rw [List.getElem?_append_left (by omega), last] at isFirst
      rw [← bound, List.getElem?_concat_length] at isSecond
      rw [List.getElem?_concat_length] at isEntry
      obtain rfl := Option.some.inj isFirst
      obtain rfl := Option.some.inj isSecond
      obtain rfl := Option.some.inj isEntry
      exact leads
    · rw [List.getElem?_eq_none (by simpa using outside)] at isEntry
      cases isEntry

/-- Entries that are forgotten take the states with them that only they lead
back to. -/
theorem latest (pass : Pass entries states) (limit : Nat) :
    Pass (History.latest limit entries) (Timeline.keep limit states) := by
  rw [History.latest, Timeline.keep]
  split
  · exact pass
  · have count : states.length - (limit + 1) = entries.length - limit := by
      rw [pass.length]
      omega
    rw [count]
    exact pass.drop (Nat.sub_le _ _)

end Pass
end Entry

/-! ## Groups that are open -/

/-- Open groups, innermost first, lead from one scene to another: the parts of
the outermost one come first. -/
inductive Collects (base : Scene) : List (Scope Edit) → Scene → Prop where
  | nil : Collects base [] base
  | cons
      {outer : List (Scope Edit)}
      {middle scene : Scene}
      {scope : Scope Edit}
      (collects : Collects base outer middle)
      (runs : Entry.Runs middle scope.parts.reverse scene) :
      Collects base (scope :: outer) scene

namespace Collects

variable {base scene : Scene} {scope : Scope Edit} {outer : List (Scope Edit)}

theorem eq_of_nil (collects : Collects base [] scene) : scene = base := by
  cases collects
  rfl

/-- Another part of the innermost group leads on. -/
theorem snoc
    (collects : Collects base (scope :: outer) scene)
    {entry : Entry Edit}
    {after : Scene}
    (leads : entry.Leads scene after) :
    Collects base ({ scope with parts := entry :: scope.parts } :: outer)
      after := by
  cases collects with
  | cons collects runs =>
      refine .cons collects ?_
      rw [List.reverse_cons]
      exact runs.snoc leads

end Collects

/-- A group with parts leads wherever its parts do. -/
theorem Scope.leads_entry
    {scope : Scope Edit}
    {before after : Scene}
    (runs : Entry.Runs before scope.parts.reverse after)
    (nonempty : scope.parts.isEmpty = false) :
    scope.entry.Leads before after := by
  refine (runs.replays ?_).map (Entry.group scope.label) (fun _ _ => rfl)
    (fun _ _ => rfl)
  rw [Ne, List.reverse_eq_nil_iff]
  exact List.isEmpty_eq_false_iff.1 nonempty

/-! ## Histories along a timeline -/

namespace History

/-- The entries of a history lead through the states of a timeline, and its open
groups lead from the present state to the scene of the document. -/
structure Follows
    (history : History Edit)
    (document : Document)
    (timeline : Timeline) : Prop where
  intact : history.corrupted = none
  inRange : history.cursor ≤ history.entries.length
  cursor : timeline.cursor = history.cursor
  pass : Entry.Pass history.entries timeline.states
  present : ∃ base, timeline.states[timeline.cursor]? = some base ∧
    Collects base history.scopes document.scene
  wellFormed : ∀ state ∈ timeline.states,
    { document with scene := state }.WellFormed

variable {history : History Edit} {document : Document} {timeline : Timeline}

theorem follows_new
    (settings : HistorySettings)
    (wellFormed : document.WellFormed) :
    (History.new settings).Follows document (.start document.scene) := by
  refine ⟨rfl, Nat.le_refl _, rfl, .single _, ⟨document.scene, rfl, .nil⟩, ?_⟩
  intro state member
  rw [List.mem_singleton.1 member]
  exact wellFormed

namespace Follows

theorem checkUsable (follows : history.Follows document timeline) :
    history.checkUsable = .ok () := by
  rw [History.checkUsable, follows.intact]

/-- Neither the clock nor numbers given out matter. -/
theorem meanwhile
    (follows : history.Follows document timeline)
    {nextId : Nat}
    (later : document.nextId ≤ nextId)
    (clock : Clock) :
    history.Follows { document with clock, nextId } timeline :=
  ⟨follows.intact, follows.inRange, follows.cursor, follows.pass,
    follows.present, fun state member =>
      ⟨(follows.wellFormed state member).scene,
      fun id known => Nat.lt_of_lt_of_le
        ((follows.wellFormed state member).numbers id known) later⟩⟩

theorem opened (follows : history.Follows document timeline) (label : String) :
    { history with scopes := ⟨label, []⟩ :: history.scopes }.Follows document
      timeline := by
  obtain ⟨base, isBase, collects⟩ := follows.present
  exact ⟨follows.intact, follows.inRange, follows.cursor, follows.pass,
    ⟨base, isBase, .cons collects (.nil _)⟩, follows.wellFormed⟩

/-- Without its innermost group a history goes with the scene where the group
was opened. -/
theorem closed
    (follows : history.Follows document timeline)
    {scope : Scope Edit}
    {outer : List (Scope Edit)}
    (isOpen : history.scopes = scope :: outer) :
    ∃ middle, Entry.Runs middle scope.parts.reverse document.scene ∧
      { history with scopes := outer }.Follows
        { document with scene := middle } timeline := by
  obtain ⟨base, isBase, collects⟩ := follows.present
  rw [isOpen] at collects
  cases collects with
  | cons collects runs =>
      exact ⟨_, runs, follows.intact, follows.inRange, follows.cursor,
        follows.pass, ⟨base, isBase, collects⟩, follows.wellFormed⟩

/-- Recording an entry that was carried out adds its scene to the timeline,
unless a group is open. -/
theorem record
    (follows : history.Follows document timeline)
    {entry : Entry Edit}
    {scene : Scene}
    {nextId : Nat}
    (later : document.nextId ≤ nextId)
    (leads : entry.Leads document.scene scene)
    (wellFormed : { document with scene, nextId }.WellFormed) :
    (history.record entry).Follows { document with scene, nextId }
      (if history.isRecording then
        timeline else timeline.record history.maxEntries scene) := by
  obtain ⟨base, isBase, collects⟩ := follows.present
  have known := (follows.meanwhile later document.clock).wellFormed
  rw [isRecording]
  cases isOpen : history.scopes with
  | cons scope outer =>
      rw [isOpen] at collects
      rw [record_of_open isOpen]
      exact ⟨follows.intact, follows.inRange, follows.cursor, follows.pass,
        ⟨base, isBase, collects.snoc leads⟩, known⟩
  | nil =>
      rw [isOpen] at collects
      obtain rfl := collects.eq_of_nil
      have length :
          (history.entries.take history.cursor).length = history.cursor :=
        List.length_take_of_le follows.inRange
      have extended :
          Entry.Pass (history.entries.take history.cursor ++ [entry])
          (timeline.states.take (timeline.cursor + 1) ++ [scene]) := by
        rw [follows.cursor] at isBase ⊢
        refine (follows.pass.take history.cursor).snoc ?_ leads
        rw [length, List.getElem?_take, if_pos (Nat.lt_succ_self _), isBase]
      have kept := extended.latest history.maxEntries
      rw [record_of_idle isOpen]
      refine ⟨follows.intact, Nat.le_refl _,
        Nat.sub_eq_of_eq_add kept.length, kept, ⟨scene, ?_, ?_⟩, ?_⟩
      · exact List.getLast?_eq_getElem?.symm.trans
          (Timeline.getLast?_keep _ _ scene)
      · rw [isOpen]
        exact .nil
      · intro state member
        rcases List.mem_append.1 (Timeline.mem_of_mem_keep member) with
          earlier | last
        · exact known state (List.mem_of_mem_take earlier)
        · rw [List.mem_singleton.1 last]
          exact wellFormed

theorem checkIdle
    (follows : history.Follows document timeline)
    (idle : history.scopes = []) :
    history.checkIdle = .ok () := by
  rw [History.checkIdle, follows.checkUsable, isRecording, idle]
  rfl

/-- Without an open group the document is in the present state. -/
theorem present_of_idle
    (follows : history.Follows document timeline)
    (idle : history.scopes = []) :
    timeline.states[history.cursor]? = some document.scene := by
  obtain ⟨base, isBase, collects⟩ := follows.present
  rw [idle] at collects
  rw [collects.eq_of_nil, ← follows.cursor, isBase]

/-- With the cursor at another state, the history goes with a document in that
state. -/
theorem moved
    (follows : history.Follows document timeline)
    (idle : history.scopes = [])
    {cursor : Nat}
    (inRange : cursor ≤ history.entries.length)
    {scene : Scene}
    (isScene : timeline.states[cursor]? = some scene) :
    { history with cursor }.Follows { document with scene }
      { timeline with cursor } := by
  refine ⟨follows.intact, inRange, rfl, follows.pass, ⟨scene, isScene, ?_⟩,
    follows.wellFormed⟩
  rw [idle]
  exact .nil

/-- Every state but the last is followed by an entry that leads on. -/
theorem leads_at
    (follows : history.Follows document timeline)
    {position : Nat}
    (inside : position < history.entries.length) :
    ∃ entry before after, history.entries[position]? = some entry ∧
      timeline.states[position]? = some before ∧
      timeline.states[position + 1]? = some after ∧
      entry.Leads before after := by
  have bound := follows.pass.length
  have isEntry := List.getElem?_eq_getElem inside
  have isBefore := List.getElem?_eq_getElem
    (show position < timeline.states.length by omega)
  have isAfter := List.getElem?_eq_getElem
    (show position + 1 < timeline.states.length by omega)
  exact ⟨_, _, _, isEntry, isBefore, isAfter,
    follows.pass.leads isBefore isAfter isEntry⟩

/-- Undo succeeds and leads to the state before. -/
theorem undo
    (follows : history.Follows document timeline)
    (idle : history.scopes = [])
    {earlier : Nat}
    (isCursor : history.cursor = earlier + 1) :
    ∃ before, timeline.states[earlier]? = some before ∧
      history.undo document =
        ⟨{ history with cursor := earlier },
          { document with scene := before }, .ok ()⟩ := by
  have inRange := follows.inRange
  have present := follows.present_of_idle idle
  obtain ⟨entry, before, after, isEntry, isBefore, isAfter, leads⟩ :=
    follows.leads_at (show earlier < history.entries.length by omega)
  rw [isCursor, isAfter] at present
  obtain rfl := Option.some.inj present
  refine ⟨before, isBefore, ?_⟩
  rw [History.undo, follows.checkIdle idle]
  simp only [isCursor, Nat.add_one_ne_zero, if_false, Nat.add_sub_cancel,
    entryAt_eq_ok_iff.2 isEntry, leads.back document rfl, replace_self isEntry]

/-- Redo succeeds and leads to the state after. -/
theorem redo
    (follows : history.Follows document timeline)
    (idle : history.scopes = [])
    (inside : history.cursor < history.entries.length) :
    ∃ after, timeline.states[history.cursor + 1]? = some after ∧
      history.redo document =
        ⟨{ history with cursor := history.cursor + 1 },
          { document with scene := after }, .ok ()⟩ := by
  have present := follows.present_of_idle idle
  obtain ⟨entry, before, after, isEntry, isBefore, isAfter, leads⟩ :=
    follows.leads_at inside
  rw [isBefore] at present
  obtain rfl := Option.some.inj present
  refine ⟨after, isAfter, ?_⟩
  have notEnd := Nat.ne_of_lt inside
  rw [History.redo, follows.checkIdle idle]
  simp only [notEnd, if_false, entryAt_eq_ok_iff.2 isEntry,
    leads.again document rfl, replace_self isEntry]

end Follows
end History

end MotionScene
