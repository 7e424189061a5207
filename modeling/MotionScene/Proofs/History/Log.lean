import MotionScene.History.Basic

/-!
# The log of a history

Putting an entry into the log cuts the log at the cursor, and then drops the
oldest entries if there are too many.  The cursor is moved along with them, and
stands behind the new entry in the end.
-/

namespace MotionScene
namespace History

variable {κ : Type} {history : History κ}

/-- The latest of some entries, as many as are kept; zero keeps all. -/
def latest (limit : Nat) (entries : List (Entry κ)) : List (Entry κ) :=
  if limit = 0 then entries else entries.drop (entries.length - limit)

theorem length_latest_le
    {limit : Nat}
    (positive : 0 < limit)
    (entries : List (Entry κ)) :
    (latest limit entries).length ≤ limit := by
  rw [latest, if_neg (Nat.ne_of_gt positive), List.length_drop]
  omega

theorem mem_of_mem_latest
    {limit : Nat}
    {entries : List (Entry κ)}
    {entry : Entry κ}
    (member : entry ∈ latest limit entries) :
    entry ∈ entries := by
  rw [latest] at member
  split at member
  · exact member
  · exact List.mem_of_mem_drop member

/-- A history whose cursor stands behind all entries is trimmed to the latest
ones, and the cursor stands behind these. -/
theorem trim_eq_latest (atEnd : history.cursor = history.entries.length) :
    history.trim =
      { history with
        entries := latest history.maxEntries history.entries
        cursor := (latest history.maxEntries history.entries).length } := by
  rw [trim, latest]
  simp only [Bool.and_eq_true, decide_eq_true_eq]
  by_cases unlimited : history.maxEntries = 0
  · rw [if_neg (by omega), if_pos unlimited, ← atEnd]
  · rw [if_neg unlimited]
    split
    · rw [List.length_drop, atEnd]
    · have few : history.entries.length - history.maxEntries = 0 := by omega
      rw [few, List.drop_zero, ← atEnd]

/-- What recording an entry makes of the log: it is cut at the cursor, has the
entry after that, and is then trimmed. -/
def logged (history : History κ) (entry : Entry κ) : List (Entry κ) :=
  latest history.maxEntries (history.entries.take history.cursor ++ [entry])

theorem append_eq_logged (history : History κ) (entry : Entry κ) :
    history.append entry =
      { history with
        entries := history.logged entry
        cursor := (history.logged entry).length } :=
  trim_eq_latest rfl

theorem record_of_idle (idle : history.scopes = []) (entry : Entry κ) :
    history.record entry =
      { history with
        entries := history.logged entry
        cursor := (history.logged entry).length } := by
  rw [record]
  split
  · next isOpen =>
    rw [idle] at isOpen
    cases isOpen
  · exact append_eq_logged history entry

theorem record_of_open
    {scope : Scope κ}
    {outer : List (Scope κ)}
    (isOpen : history.scopes = scope :: outer)
    (entry : Entry κ) :
    history.record entry =
      { history with
        scopes := { scope with parts := entry :: scope.parts } :: outer } := by
  rw [record, isOpen]

theorem corrupted_record (history : History κ) (entry : Entry κ) :
    (history.record entry).corrupted = history.corrupted := by
  cases isOpen : history.scopes with
  | nil => rw [record_of_idle isOpen]
  | cons scope outer => rw [record_of_open isOpen]

/-! ## Looking entries up -/

theorem entryAt_eq_ok_iff {position : Nat} {entry : Entry κ} :
    history.entryAt position = .ok entry ↔
      history.entries[position]? = some entry := by
  rw [entryAt]
  cases history.entries[position]? <;> simp

theorem exists_entryAt {position : Nat} (inside : position < history.size) :
    ∃ entry, history.entryAt position = .ok entry :=
  ⟨_, entryAt_eq_ok_iff.2 (List.getElem?_eq_getElem inside)⟩

/-- Putting the entry that is there leaves the log as it is. -/
theorem replace_self
    {position : Nat}
    {entry : Entry κ}
    (found : history.entries[position]? = some entry) :
    history.replace position entry = history := by
  obtain ⟨inside, rfl⟩ := List.getElem?_eq_some_iff.1 found
  rw [replace, List.set_getElem_self]

end History
end MotionScene
