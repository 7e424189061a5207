import Mathlib.Data.List.Forall2

/-!
# Attempts

Computations that give a result or a fault: when a composed attempt succeeds,
and what its parts gave then.
-/

namespace MotionScene
namespace Attempt

variable {ε α β : Type}

@[simp] theorem ok_bind (value : α) (next : α → Except ε β) :
    (Except.ok value >>= next) = next value := rfl

@[simp] theorem error_bind (fault : ε) (next : α → Except ε β) :
    (Except.error fault >>= next) = .error fault := rfl

@[simp] theorem pure_eq_ok (value : α) :
    (pure value : Except ε α) = .ok value := rfl

@[simp] theorem throw_eq_error (fault : ε) :
    (throw fault : Except ε α) = .error fault := rfl

@[simp] theorem map_ok (change : α → β) (value : α) :
    (Except.ok value : Except ε α).map change = .ok (change value) := rfl

@[simp] theorem map_error (change : α → β) (fault : ε) :
    (Except.error fault : Except ε α).map change = .error fault := rfl

/-- A chain succeeds when its first part does and the rest succeeds on what that
gave. -/
theorem bind_eq_ok_iff
    {first : Except ε α}
    {next : α → Except ε β}
    {result : β} :
    (first >>= next) = .ok result ↔
      ∃ value, first = .ok value ∧ next value = .ok result := by
  cases first <;> simp

theorem map_eq_ok_iff {first : Except ε α} {change : α → β} {result : β} :
    first.map change = .ok result ↔
      ∃ value, first = .ok value ∧ change value = result := by
  cases first <;> simp

/-- Attempts on all items of a list succeed together. -/
theorem mapM_eq_ok_iff
    {attempt : α → Except ε β}
    {items : List α}
    {results : List β} :
    items.mapM attempt = .ok results ↔
      List.Forall₂ (fun item result => attempt item = .ok result) items
        results := by
  induction items generalizing results with
  | nil => cases results <;> simp
  | cons item rest inductionHypothesis =>
      simp only [List.mapM_cons, bind_eq_ok_iff, pure_eq_ok, Except.ok.injEq,
        List.forall₂_cons_left_iff]
      constructor
      · rintro ⟨first, done, others, remaining, rfl⟩
        exact ⟨first, others, done, inductionHypothesis.1 remaining, rfl⟩
      · rintro ⟨first, others, done, remaining, rfl⟩
        exact ⟨first, done, others, inductionHypothesis.2 remaining, rfl⟩

/-- Every result of attempts on a list comes from one of its items. -/
theorem exists_of_mem_mapM
    {attempt : α → Except ε β}
    {items : List α}
    {results : List β}
    (done : items.mapM attempt = .ok results)
    {result : β}
    (member : result ∈ results) :
    ∃ item ∈ items, attempt item = .ok result := by
  have all := mapM_eq_ok_iff.1 done
  clear done
  induction all with
  | nil => cases member
  | cons first _ inductionHypothesis =>
      rcases List.mem_cons.1 member with rfl | member
      · exact ⟨_, List.mem_cons_self, first⟩
      · obtain ⟨item, among, found⟩ := inductionHypothesis member
        exact ⟨item, List.mem_cons_of_mem _ among, found⟩

/-- Attempts on all items of a list succeed if and only if each of them does. -/
theorem exists_mapM_iff {attempt : α → Except ε β} {items : List α} :
    (∃ results, items.mapM attempt = .ok results) ↔
      ∀ item ∈ items, ∃ result, attempt item = .ok result := by
  induction items with
  | nil => simp
  | cons item rest inductionHypothesis =>
      rw [List.forall_mem_cons, ← inductionHypothesis]
      simp only [List.mapM_cons, bind_eq_ok_iff, pure_eq_ok, Except.ok.injEq]
      constructor
      · rintro ⟨_, first, done, others, remaining, _⟩
        exact ⟨⟨first, done⟩, others, remaining⟩
      · rintro ⟨⟨first, done⟩, others, remaining⟩
        exact ⟨_, first, done, others, remaining, rfl⟩

/-- Checks of all items of a list succeed together. -/
theorem forM_eq_ok_iff {check : α → Except ε PUnit} {items : List α} :
    items.forM check = .ok () ↔ ∀ item ∈ items, check item = .ok () := by
  induction items with
  | nil => simp
  | cons item rest inductionHypothesis =>
      change (check item >>= fun _ => rest.forM check) = .ok () ↔ _
      simp only [bind_eq_ok_iff, List.mem_cons, forall_eq_or_imp]
      constructor
      · rintro ⟨_, done, remaining⟩
        exact ⟨done, inductionHypothesis.1 remaining⟩
      · rintro ⟨done, remaining⟩
        exact ⟨(), done, inductionHypothesis.2 remaining⟩

end Attempt
end MotionScene
