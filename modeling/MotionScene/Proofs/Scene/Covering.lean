import MotionScene.Proofs.Scene.DepthFirst

/-!
# Topmost owners cover a list

Commands that take whole parts of the tree look only at the topmost owners of
the list they are given.  This loses nothing: in a valid scene lying within
another owner is a partial order whose upward steps run out, so above every
existing owner of the list there is a topmost one, and as the owners above it
form a chain there is only one.
-/

namespace MotionScene
namespace Scene

variable {scene : Scene}

/-! ## First places -/

theorem appendNew_eq_append (listed ids : List OwnerId) :
    appendNew listed ids = listed ++ (ids.removeAll listed).eraseDups := by
  induction ids generalizing listed with
  | nil => simp [appendNew]
  | cons first rest inductionHypothesis =>
      unfold appendNew
      split
      · next known =>
        have passed :
            (first :: rest).removeAll listed = rest.removeAll listed := by
          simp [List.cons_removeAll, known]
        rw [inductionHypothesis, passed]
      · next fresh =>
        have kept : (first :: rest).removeAll listed =
            first :: rest.removeAll listed := by
          simp [List.cons_removeAll, fresh]
        have later : rest.removeAll (listed ++ [first]) =
            (rest.removeAll listed).filter fun id => !id == first := by
          simp [List.removeAll, List.filter_filter, Bool.and_comm,
            Bool.beq_eq_decide_eq]
        rw [inductionHypothesis, kept, List.eraseDups_cons, later,
          List.append_assoc, List.singleton_append]

theorem distinct_eq_eraseDups (ids : List OwnerId) :
    distinct ids = ids.eraseDups := by
  rw [distinct, appendNew_eq_append, List.nil_append, List.removeAll_nil]

/-- Leaving entries out leaves the others in their first places. -/
theorem eraseDups_filter_sublist (keep : OwnerId → Bool) (ids : List OwnerId) :
    (ids.filter keep).eraseDups.Sublist ids.eraseDups := by
  induction whole : ids.length using Nat.strong_induction_on
    generalizing ids with
  | _ size inductionHypothesis =>
      cases ids with
      | nil => exact List.Sublist.refl _
      | cons first rest =>
          have shorter :
              (rest.filter fun id => !id == first).length < size := by
            have bound := List.length_filter_le (fun id => !id == first) rest
            rw [← whole, List.length_cons]
            omega
          have others := inductionHypothesis _ shorter _ rfl
          rw [List.eraseDups_cons]
          cases kept : keep first with
          | true =>
              rw [List.filter_cons_of_pos kept, List.eraseDups_cons,
                List.filter_comm]
              exact others.cons_cons first
          | false =>
              have absent : (rest.filter fun id => !id == first).filter keep =
                  rest.filter keep := by
                rw [List.filter_filter]
                refine List.filter_congr fun id _ => ?_
                by_cases same : id = first <;> simp [same, kept]
              rw [List.filter_cons_of_neg (by simp [kept]), ← absent]
              exact others.cons first

/-! ## Coverings -/

/-- Owners of a list that stand for all of it: they exist, stand in the order of
their first places without repetition, and none lies within another one; every
existing owner of the list lies within exactly one of them, and a removal takes
the same with them as with all of these. -/
structure Covering (scene : Scene) (ids tops : List OwnerId) : Prop where
  listed : tops.Sublist ids.eraseDups
  nodup : tops.Nodup
  known : ∀ top ∈ tops, scene.contains top = true
  apart : ∀ top ∈ tops, ∀ other ∈ tops,
    scene.isWithin top other = true → top = other
  covers : ∀ id ∈ ids, scene.contains id = true →
    ∃! top, top ∈ tops ∧ scene.isWithin id top = true
  closure : scene.removalClosure tops =
    scene.removalClosure (ids.filter scene.contains)

theorem topLevel_sublist (scene : Scene) (ids : List OwnerId) :
    (scene.topLevel ids).Sublist ids.eraseDups := by
  rw [topLevel, distinct_eq_eraseDups]
  exact List.filter_sublist.trans (eraseDups_filter_sublist scene.contains ids)

namespace Demands

/-- Two topmost owners above the same one are the same. -/
theorem existsUnique_topLevel
    (demands : scene.Demands)
    {ids : List OwnerId}
    {id : OwnerId}
    (listed : id ∈ ids)
    (known : scene.contains id = true) :
    ∃! top, top ∈ scene.topLevel ids ∧ scene.isWithin id top = true := by
  simp only [isWithin_iff demands.acyclic]
  obtain ⟨top, isTop, climbs⟩ :=
    exists_topLevel demands.acyclic listed known (.refl scene id)
  refine ⟨top, ⟨isTop, climbs⟩, ?_⟩
  rintro other ⟨isOther, toOther⟩
  rcases climbs.total toOther with above | above
  · exact eq_of_climbs_topLevel demands.acyclic isTop isOther above
  · exact (eq_of_climbs_topLevel demands.acyclic isOther isTop above).symm

end Demands

/-- In a valid scene the topmost owners of a list cover it. -/
theorem covering_topLevel
    (valid : scene.violations = [])
    (ids : List OwnerId) :
    scene.Covering ids (scene.topLevel ids) := by
  have demands : scene.Demands :=
    tolerable_violations_iff.1 (valid ▸ tolerable_nil)
  constructor
  case listed => exact scene.topLevel_sublist ids
  case nodup => exact nodup_topLevel scene ids
  case known => exact fun top => contains_of_mem_topLevel
  case apart =>
    intro top isTop other isOther within
    have climbs := (isWithin_iff demands.acyclic).1 within
    exact (eq_of_climbs_topLevel demands.acyclic isTop isOther climbs).symm
  case covers => exact fun id => demands.existsUnique_topLevel
  case closure =>
    exact removalClosure_topLevel demands.mem_subtree_iff demands.acyclic ids

theorem nested_covering :
    let scene := (Document.unchecked Document.nested {}).scene
    let ids : List OwnerId := [⟨7⟩, ⟨99⟩, ⟨4⟩, ⟨3⟩, ⟨8⟩, ⟨4⟩, ⟨9⟩, ⟨7⟩]
    scene.violations = [] ∧ scene.topLevel ids = [⟨4⟩, ⟨3⟩, ⟨9⟩] ∧
      scene.Covering ids (scene.topLevel ids) :=
  ⟨Document.violations_nested, rfl,
    covering_topLevel Document.violations_nested _⟩

end Scene
end MotionScene
