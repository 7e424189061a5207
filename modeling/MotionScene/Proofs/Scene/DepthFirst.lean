import MotionScene.Proofs.Scene.Tree

/-!
# Depth-first order

Walking down with a list of pending owners gives the depth-first order of the
tree: every owner is followed by its tags, then by everything beneath its first
child, and so on.  The walk skips what it has seen, but in a tree it never sees
anything twice.  What it lists is what climbing finds.
-/

namespace MotionScene
namespace Scene

variable {scene : Scene} {loose : Set OwnerId}

/-- Siblings with everything beneath them, in depth-first order: each one is
followed by its tags, then by what is beneath its children, and only then by the
next sibling. -/
inductive DepthFirst (scene : Scene) : List OwnerId → List OwnerId → Prop where
  | nil : DepthFirst scene [] []
  | cons
      {id : OwnerId}
      {siblings beneath after : List OwnerId}
      (inner : DepthFirst scene (scene.entries (.children id)) beneath)
      (outer : DepthFirst scene siblings after) :
      DepthFirst scene (id :: siblings)
        (id :: (scene.entries (.tags id) ++ beneath ++ after))

/-! ## Trees without common parts -/

namespace Climbs

/-- Different owners with the same parent have nothing beneath them in
common. -/
theorem eq_of_siblings
    (acyclic : scene.Acyclic)
    {id first second parent : OwnerId}
    (firstStep : scene.parentOf first = some parent)
    (secondStep : scene.parentOf second = some parent)
    (toFirst : scene.Climbs id first)
    (toSecond : scene.Climbs id second) :
    first = second := by
  have sibling : ∀ {lower upper : OwnerId}, scene.parentOf lower = some parent →
      scene.parentOf upper = some parent → scene.Climbs lower upper →
      lower = upper := by
    intro lower upper lowerStep upperStep climbs
    rcases climbs.cases_head with same | ⟨above, step, rest⟩
    · exact same
    · obtain rfl : parent = above := Option.some.inj (lowerStep.symm.trans step)
      exact absurd rest (acyclic upper parent upperStep)
  rcases toFirst.total toSecond with climbs | climbs
  · exact sibling firstStep secondStep climbs
  · exact (sibling secondStep firstStep climbs).symm

end Climbs

/-- Nothing lies beneath two of the owners of a list. -/
def Apart (scene : Scene) (ids : List OwnerId) : Prop :=
  ids.Pairwise fun first second => ∀ id, scene.Climbs id first →
    ¬ scene.Climbs id second

/-- Nothing lies beneath two topmost owners of a list. -/
theorem apart_topLevel (acyclic : scene.Acyclic) (ids : List OwnerId) :
    scene.Apart (scene.topLevel ids) := by
  refine (nodup_topLevel scene ids).imp_of_mem ?_
  intro first second isFirst isSecond differs id toFirst toSecond
  rcases toFirst.total toSecond with climbs | climbs
  · exact differs (eq_of_climbs_topLevel acyclic isFirst isSecond climbs).symm
  · exact differs (eq_of_climbs_topLevel acyclic isSecond isFirst climbs)

namespace Linked

/-- The children of an owner have nothing beneath them in common. -/
theorem apart_children (linked : scene.Linked loose) (id : OwnerId) :
    scene.Apart (scene.entries (.children id)) := by
  refine (linked.nodup (.children id)).imp_of_mem ?_
  intro first second isFirst isSecond differs beneath toFirst toSecond
  have firstStep := (linked.host_of_mem isFirst rfl).1
  have secondStep := (linked.host_of_mem isSecond rfl).1
  exact differs
    (toFirst.eq_of_siblings linked.acyclic firstStep secondStep toSecond)

/-- There is less beneath a child than beneath its parent. -/
theorem length_subtree_lt
    (linked : scene.Linked loose)
    {id parent : OwnerId}
    (step : scene.parentOf id = some parent) :
    (scene.subtree id).length < (scene.subtree parent).length := by
  have outside : parent ∉ scene.subtree id :=
    fun member => linked.acyclic id parent step
      (linked.mem_subtree_iff.1 member)
  have within : parent :: scene.subtree id ⊆ scene.subtree parent := by
    intro other member
    rw [linked.mem_subtree_iff]
    rcases List.mem_cons.1 member with rfl | beneath
    · exact .refl scene other
    · exact (linked.mem_subtree_iff.1 beneath).trans (.single step)
  have distinct : (parent :: scene.subtree id).Nodup :=
    List.nodup_cons.2 ⟨outside, nodup_subtree scene id⟩
  exact (distinct.subperm within).length_le

end Linked

/-! ## Depth-first listings -/

namespace DepthFirst

variable {ids others listing otherListing : List OwnerId}

theorem append
    (order : scene.DepthFirst ids listing)
    (onward : scene.DepthFirst others otherListing) :
    scene.DepthFirst (ids ++ others) (listing ++ otherListing) := by
  induction order with
  | nil => exact onward
  | @cons id siblings beneath after inner _ _ inductionHypothesis =>
      have joined := DepthFirst.cons inner inductionHypothesis
      simpa only [List.cons_append, List.append_assoc] using joined

theorem exists_of_forall
    (each : ∀ id ∈ ids, ∃ listing, scene.DepthFirst [id] listing) :
    ∃ listing, scene.DepthFirst ids listing := by
  induction ids with
  | nil => exact ⟨[], .nil⟩
  | cons id rest inductionHypothesis =>
      obtain ⟨first, isFirst⟩ := each id List.mem_cons_self
      obtain ⟨others, areOthers⟩ :=
        inductionHypothesis fun other member =>
          each other (List.mem_cons_of_mem id member)
      exact ⟨first ++ others, isFirst.append areOthers⟩

/-- Everything listed lies within one of the siblings. -/
theorem climbs_of_mem
    (linked : scene.Linked loose)
    (order : scene.DepthFirst ids listing)
    {id : OwnerId}
    (member : id ∈ listing) :
    ∃ top ∈ ids, scene.Climbs id top := by
  induction order with
  | nil => cases member
  | @cons first siblings beneath after _ _ innerHypothesis outerHypothesis =>
      simp only [List.mem_cons, List.mem_append] at member
      rcases member with rfl | (isTag | isBeneath) | isAfter
      · exact ⟨id, List.mem_cons_self, .refl scene id⟩
      · exact ⟨first, List.mem_cons_self,
          .single (linked.host_of_mem isTag rfl).1⟩
      · obtain ⟨child, isChild, climbs⟩ := innerHypothesis isBeneath
        exact ⟨first, List.mem_cons_self,
          climbs.trans (.single (linked.host_of_mem isChild rfl).1)⟩
      · obtain ⟨top, isSibling, climbs⟩ := outerHypothesis isAfter
        exact ⟨top, List.mem_cons_of_mem first isSibling, climbs⟩

/-- Siblings that have nothing in common are listed without repetition. -/
theorem nodup
    (linked : scene.Linked loose)
    (order : scene.DepthFirst ids listing)
    (apart : scene.Apart ids) :
    listing.Nodup := by
  induction order with
  | nil => exact List.nodup_nil
  | @cons id siblings beneath after inner outer innerHypothesis
      outerHypothesis =>
        obtain ⟨first, others⟩ := List.pairwise_cons.1 apart
        have tagStep : ∀ tag ∈ scene.entries (.tags id),
            scene.parentOf tag = some id :=
          fun tag isTag => (linked.host_of_mem isTag rfl).1
        have childStep : ∀ child ∈ scene.entries (.children id),
            scene.parentOf child = some id :=
          fun child isChild => (linked.host_of_mem isChild rfl).1
        have within : ∀ other ∈ id :: (scene.entries (.tags id) ++ beneath),
            scene.Climbs other id := by
          intro other member
          have listed : scene.DepthFirst [id]
              (id :: (scene.entries (.tags id) ++ beneath ++ [])) :=
            .cons inner .nil
          rw [List.append_nil] at listed
          obtain ⟨top, isTop, climbs⟩ := listed.climbs_of_mem linked member
          rwa [List.mem_singleton.1 isTop] at climbs
        have apartFromTags : ∀ tag ∈ scene.entries (.tags id),
            ∀ other ∈ beneath, tag ≠ other := by
          rintro tag isTag _ isBeneath rfl
          obtain ⟨child, isChild, climbs⟩ :=
            inner.climbs_of_mem linked isBeneath
          have same := (Climbs.refl scene tag).eq_of_siblings linked.acyclic
            (tagStep tag isTag) (childStep child isChild) climbs
          subst same
          -- An entry of both lists would have two homes.
          have homes := ((linked.listed _ _).1 isTag).1.symm.trans
            ((linked.listed _ _).1 isChild).1
          cases homes
        have apartFromSelf : id ∉ scene.entries (.tags id) ++ beneath := by
          intro member
          rcases List.mem_append.1 member with isTag | isBeneath
          · exact linked.acyclic id id (tagStep id isTag) (.refl scene id)
          · obtain ⟨child, isChild, climbs⟩ :=
              inner.climbs_of_mem linked isBeneath
            exact linked.acyclic child id (childStep child isChild) climbs
        rw [← List.cons_append, List.nodup_append, List.nodup_cons,
          List.nodup_append]
        refine ⟨⟨apartFromSelf, linked.nodup (.tags id),
          innerHypothesis (linked.apart_children id), apartFromTags⟩,
          outerHypothesis others, ?_⟩
        rintro other member _ isAfter rfl
        obtain ⟨top, isSibling, climbs⟩ := outer.climbs_of_mem linked isAfter
        exact first top isSibling other (within other member) climbs

end DepthFirst

/-! ## The walk -/

theorem appendNew_of_nodup
    {listed ids : List OwnerId}
    (nodup : (listed ++ ids).Nodup) :
    appendNew listed ids = listed ++ ids := by
  induction ids generalizing listed with
  | nil => simp [appendNew]
  | cons id rest inductionHypothesis =>
      have split : listed ++ id :: rest = listed ++ [id] ++ rest := by simp
      have fresh : id ∉ listed := by
        intro member
        exact (List.nodup_append.1 nodup).2.2 id member id
          List.mem_cons_self rfl
      rw [appendNew, if_neg fresh, split]
      exact inductionHypothesis (split ▸ nodup)

/-- Visiting an owner for the first time lists it and its tags, which are new as
well, and spends one step. -/
theorem walk_fresh
    {fuel : Nat}
    {id : OwnerId}
    {pending listed : List OwnerId}
    (nodup : (listed ++ id :: scene.entries (.tags id)).Nodup) :
    scene.walk (fuel + 1) (id :: pending) listed =
      scene.walk fuel (scene.entries (.children id) ++ pending)
        (listed ++ id :: scene.entries (.tags id)) := by
  have split : listed ++ id :: scene.entries (.tags id) =
      listed ++ [id] ++ scene.entries (.tags id) := by
    simp
  have fresh : id ∉ listed := by
    intro member
    exact (List.nodup_append.1 nodup).2.2 id member id List.mem_cons_self rfl
  rw [split] at nodup ⊢
  rw [walk_cons, if_neg fresh, appendNew_of_nodup nodup]

/-- The walk lists pending owners in depth-first order before it goes on to the
others, and has steps left for these. -/
theorem DepthFirst.walk_eq
    {ids listing more listed : List OwnerId}
    {fuel : Nat}
    (order : scene.DepthFirst ids listing)
    (nodup : (listed ++ listing).Nodup)
    (enough : (ids ++ more).length + scene.budget listed ≤ fuel) :
    ∃ left, more.length + scene.budget (listed ++ listing) ≤ left ∧
      scene.walk fuel (ids ++ more) listed =
        scene.walk left more (listed ++ listing) := by
  induction order generalizing more listed fuel with
  | nil => exact ⟨fuel, by simpa using enough, by simp⟩
  | @cons id siblings beneath after _ _ innerHypothesis outerHypothesis =>
      obtain ⟨spare, rfl⟩ : ∃ spare, fuel = spare + 1 := by
        rw [List.cons_append, List.length_cons] at enough
        exact ⟨fuel - 1, by omega⟩
      have split :
          listed ++ id :: (scene.entries (.tags id) ++ beneath ++ after) =
          (listed ++ id :: scene.entries (.tags id)) ++ beneath ++ after := by
        simp
      rw [split] at nodup ⊢
      have innerNodup := nodup.of_append_left
      have visitNodup := innerNodup.of_append_left
      have fresh : id ∉ listed := by
        intro member
        exact (List.nodup_append.1 visitNodup).2.2 id member id
          List.mem_cons_self rfl
      have paid :=
        scene.budget_listed fresh (listed ++ id :: scene.entries (.tags id))
          (List.subset_append_left _ _)
          (List.mem_append_right listed List.mem_cons_self)
      have innerEnough :
          (scene.entries (.children id) ++ (siblings ++ more)).length +
          scene.budget (listed ++ id :: scene.entries (.tags id)) ≤ spare := by
        simp only [List.cons_append, List.length_cons, List.length_append]
          at enough ⊢
        omega
      obtain ⟨middle, outerEnough, innerWalk⟩ :=
        innerHypothesis innerNodup innerEnough
      obtain ⟨left, leftEnough, outerWalk⟩ := outerHypothesis nodup outerEnough
      refine ⟨left, leftEnough, ?_⟩
      calc
        scene.walk (spare + 1) (id :: siblings ++ more) listed
          = scene.walk spare
              (scene.entries (.children id) ++ (siblings ++ more))
              (listed ++ id :: scene.entries (.tags id)) :=
            walk_fresh visitNodup
        _ = scene.walk middle (siblings ++ more)
              (listed ++ id :: scene.entries (.tags id) ++ beneath) := innerWalk
        _ = _ := outerWalk

namespace Linked

/-- Everything beneath an owner can be listed in depth-first order, as there is
less beneath each of its children. -/
theorem exists_depthFirst (linked : scene.Linked loose) (id : OwnerId) :
    ∃ listing, scene.DepthFirst [id] listing := by
  induction bound : (scene.subtree id).length using Nat.strong_induction_on
    generalizing id with
  | _ size inductionHypothesis =>
      subst bound
      obtain ⟨beneath, inner⟩ : ∃ listing,
          scene.DepthFirst (scene.entries (.children id)) listing := by
        refine DepthFirst.exists_of_forall fun child isChild => ?_
        have less := linked.length_subtree_lt (linked.host_of_mem isChild rfl).1
        exact inductionHypothesis _ less child rfl
      exact ⟨_, .cons inner .nil⟩

/-- The walk from an owner lists what lies within it in depth-first order. -/
theorem depthFirst_subtree (linked : scene.Linked loose) (id : OwnerId) :
    scene.DepthFirst [id] (scene.subtree id) := by
  obtain ⟨listing, order⟩ := linked.exists_depthFirst id
  have nodup : ([] ++ listing).Nodup :=
    order.nodup linked (List.pairwise_singleton _ id)
  have enough :
      ([id] ++ []).length + scene.budget [] ≤ scene.childCount + 1 := by
    rw [budget_nil, List.append_nil, List.length_singleton, Nat.add_comm]
  obtain ⟨left, _, walked⟩ := order.walk_eq nodup enough
  have same : scene.subtree id = listing := by
    rw [subtree, ← List.append_nil [id], walked]
    cases left <;> rfl
  rwa [same]

end Linked

/-! ## Valid scenes -/

/-- The walk looks at the owners alone. -/
theorem walk_withLists
    (scene : Scene)
    (styles tools : List OwnerId)
    (fuel : Nat)
    (pending listed : List OwnerId) :
    { scene with styles, tools }.walk fuel pending listed =
      scene.walk fuel pending listed := by
  induction fuel generalizing pending listed with
  | zero => rfl
  | succ fuel inductionHypothesis =>
      cases pending with
      | nil => rfl
      | cons id rest =>
          rw [walk_cons, walk_cons, inductionHypothesis, inductionHypothesis]
          rfl

theorem DepthFirst.of_withLists
    {styles tools ids listing : List OwnerId}
    (order : { scene with styles, tools }.DepthFirst ids listing) :
    scene.DepthFirst ids listing := by
  induction order with
  | nil => exact .nil
  | cons _ _ innerHypothesis outerHypothesis =>
      exact .cons innerHypothesis outerHypothesis

theorem subtree_withLists
    (scene : Scene)
    (styles tools : List OwnerId)
    (id : OwnerId) :
    { scene with styles, tools }.subtree id = scene.subtree id :=
  scene.walk_withLists styles tools _ [id] []

/-- Whether styles and tools are repeated does not matter for the tree. -/
theorem Demands.linked_distinct (demands : scene.Demands) :
    { scene with
      styles := distinct scene.styles
      tools := distinct scene.tools }.Linked ∅ := by
  refine Demands.linked ?_ (nodup_distinct _) (nodup_distinct _)
  constructor
  case root => exact demands.root
  case links => exact demands.links
  case properties => exact demands.properties
  case ownership => exact demands.ownership
  case places =>
    intro id owner found
    have place := tolerable_checkPlace.1 (demands.places id owner found)
    refine tolerable_checkPlace.2 ?_
    cases sort : owner.kind.category with
    | object | tag =>
        rw [sort] at place
        rw [subtree_withLists]
        exact place
    | style | tool =>
        rw [sort] at place
        exact mem_distinct.2 place
  case styles =>
    exact fun id member => demands.styles id (mem_distinct.1 member)
  case tools => exact fun id member => demands.tools id (mem_distinct.1 member)
  case targets => exact demands.targets
  case selection => exact demands.selection

theorem Demands.mem_subtree_iff
    (demands : scene.Demands)
    {top id : OwnerId} :
    id ∈ scene.subtree top ↔ scene.Climbs id top := by
  rw [← subtree_withLists]
  exact demands.linked_distinct.mem_subtree_iff

/-- In a valid scene climbing and walking agree: one owner lies within another
if and only if the walk down from there lists it, and the walk goes in
depth-first order. -/
theorem within_iff_listed_beneath
    (valid : scene.violations = [])
    (id ancestor : OwnerId) :
    (scene.isWithin id ancestor = true ↔ id ∈ scene.subtree ancestor) ∧
      scene.DepthFirst [ancestor] (scene.subtree ancestor) := by
  have demands : scene.Demands :=
    tolerable_violations_iff.1 (valid ▸ tolerable_nil)
  have order := demands.linked_distinct.depthFirst_subtree ancestor
  rw [subtree_withLists] at order
  exact ⟨(isWithin_iff demands.acyclic).trans demands.mem_subtree_iff.symm,
    order.of_withLists⟩

end Scene

/-- A tree of depth two: a group that holds a path and an ellipse beside it,
both with a tag that refers to the path, and a style that nothing refers to. -/
def Document.nested : Snapshot where
  id := ⟨7⟩
  root := ⟨1⟩
  styles := [⟨4⟩]
  tools := [⟨2⟩]
  selection := [⟨4⟩, ⟨7⟩]
  clock := .new {}
  owners := [
    { id := ⟨1⟩, kind := .object .empty, properties := [],
      children := [⟨3⟩, ⟨6⟩] },
    { id := ⟨3⟩
      kind := .object .empty
      properties := []
      parent := some ⟨1⟩
      children := [⟨7⟩]
      tags := [⟨8⟩] },
    { id := ⟨8⟩
      kind := .tag .path
      properties :=
      [{ Property.referring "path" [.object] with
        value := .reference (some ⟨7⟩) }]
      parent := some ⟨3⟩ },
    { id := ⟨7⟩
      kind := .object .path
      properties := []
      parent := some ⟨3⟩
      geometry := some .empty },
    { id := ⟨6⟩, kind := .object .ellipse, properties := [], parent := some ⟨1⟩,
      tags := [⟨9⟩] },
    { id := ⟨9⟩
      kind := .tag .path
      properties :=
      [{ Property.referring "path" [.object] with
        value := .reference (some ⟨7⟩) }]
      parent := some ⟨6⟩ },
    { id := ⟨4⟩, kind := .style, properties := [] },
    { id := ⟨2⟩, kind := .tool .select, properties := [] }]

theorem Document.ofSnapshot_nested :
    ofSnapshot nested {} = .ok (unchecked nested {}) :=
  rfl

theorem Document.violations_nested :
    (unchecked nested {}).scene.violations = [] :=
  (ofSnapshot_eq_ok_iff.1 ofSnapshot_nested).2.2.1

theorem Document.wellFormed_nested : (unchecked nested {}).WellFormed := by
  refine wellFormed_ofSnapshot ofSnapshot_nested (List.nodup_singleton _)
    (List.nodup_singleton _) ?_
  exact Scene.forall_mem_toList.1 (by decide)

namespace Scene

theorem nested_listed_beneath :
    let scene := (Document.unchecked Document.nested {}).scene
    scene.violations = [] ∧ scene.subtree ⟨1⟩ = [⟨1⟩, ⟨3⟩, ⟨8⟩, ⟨7⟩, ⟨6⟩, ⟨9⟩] ∧
      (scene.isWithin ⟨8⟩ ⟨1⟩ = true ↔ (⟨8⟩ : OwnerId) ∈ scene.subtree ⟨1⟩) ∧
      scene.DepthFirst [⟨1⟩] (scene.subtree ⟨1⟩) :=
  ⟨Document.violations_nested, rfl,
    within_iff_listed_beneath Document.violations_nested ⟨8⟩ ⟨1⟩⟩

end Scene
end MotionScene
