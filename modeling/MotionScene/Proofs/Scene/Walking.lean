import Mathlib.Algebra.GroupWithZero.Nat
import Mathlib.Algebra.Order.BigOperators.Group.List
import Mathlib.Algebra.Order.Group.Nat
import Mathlib.Data.List.Nodup
import MotionScene.Proofs.Scene.Ownership
import MotionScene.Scene.Reference

/-!
# Walking down the tree

The walk from an owner is a loop of strides, each of which takes the next
pending owner; what every stride keeps, the whole walk keeps.  The strides run
out on any scene, as every link to a child is followed at most once.  The walk
from an owner lists exactly the owners that lie within it: that it lists no
others holds on any scene, that it misses none needs the links to be in order.
-/

namespace MotionScene
namespace Scene

variable {scene : Scene} {loose : Set OwnerId}

/-! ## Lists without repetition -/

theorem mem_appendNew {listed ids : List OwnerId} {id : OwnerId} :
    id ∈ appendNew listed ids ↔ id ∈ listed ∨ id ∈ ids := by
  induction ids generalizing listed with
  | nil => simp [appendNew]
  | cons first rest inductionHypothesis =>
      unfold appendNew
      split
      · next known =>
        rw [inductionHypothesis, List.mem_cons]
        constructor
        · exact Or.imp_right Or.inr
        · rintro (member | rfl | member)
          · exact Or.inl member
          · exact Or.inl known
          · exact Or.inr member
      · rw [inductionHypothesis, List.mem_append, List.mem_singleton,
          List.mem_cons, or_assoc]

theorem nodup_appendNew
    {listed : List OwnerId}
    (nodup : listed.Nodup)
    (ids : List OwnerId) :
    (appendNew listed ids).Nodup := by
  induction ids generalizing listed with
  | nil => exact nodup
  | cons first rest inductionHypothesis =>
      unfold appendNew
      split
      · exact inductionHypothesis nodup
      · next fresh =>
        apply inductionHypothesis
        rw [List.nodup_append]
        refine ⟨nodup, List.nodup_singleton first, ?_⟩
        intro id member other same
        rw [List.mem_singleton] at same
        rintro rfl
        exact fresh (same ▸ member)

theorem mem_distinct {ids : List OwnerId} {id : OwnerId} :
    id ∈ distinct ids ↔ id ∈ ids := by
  simp [distinct, mem_appendNew]

theorem nodup_distinct (ids : List OwnerId) : (distinct ids).Nodup :=
  nodup_appendNew List.nodup_nil ids

theorem listed_prefix_appendNew (listed ids : List OwnerId) :
    listed <+: appendNew listed ids := by
  induction ids generalizing listed with
  | nil => exact List.prefix_rfl
  | cons first rest inductionHypothesis =>
      unfold appendNew
      split
      · exact inductionHypothesis listed
      · exact (List.prefix_append listed [first]).trans (inductionHypothesis _)

/-! ## Strides of the walk -/

/-- How far a walk has come: the owners still to be visited, the next one first,
and those listed. -/
structure Tour where
  pending : List OwnerId
  listed : List OwnerId

/-- A stride of the walk passes over the next owner if it is listed already.
Otherwise it lists the owner with those of its tags that are new, and goes on
with its children. -/
inductive Stride (scene : Scene) : Tour → Tour → Prop where
  | pass
      {id : OwnerId}
      {pending listed : List OwnerId}
      (known : id ∈ listed) :
      Stride scene ⟨id :: pending, listed⟩ ⟨pending, listed⟩
  | visit
      {id : OwnerId}
      {pending listed : List OwnerId}
      (fresh : id ∉ listed) :
      Stride scene ⟨id :: pending, listed⟩
        ⟨scene.entries (.children id) ++ pending,
          appendNew (listed ++ [id]) (scene.entries (.tags id))⟩

variable {before after : Tour}

theorem walk_cons
    (scene : Scene)
    (fuel : Nat)
    (id : OwnerId)
    (pending listed : List OwnerId) :
    scene.walk (fuel + 1) (id :: pending) listed =
      if id ∈ listed then scene.walk fuel pending listed
      else
        scene.walk fuel (scene.entries (.children id) ++ pending)
          (appendNew (listed ++ [id]) (scene.entries (.tags id))) := by
  rw [walk]
  cases found : scene.owner? id with
  | none => simp [entries, found, appendNew]
  | some owner => simp [entries, found]

/-- The links to children of the owners that are not listed yet. -/
def budget (scene : Scene) (listed : List OwnerId) : Nat :=
  (scene.owners.toList.map fun owner =>
    if owner.id ∈ listed then 0 else owner.children.length).sum

theorem budget_nil (scene : Scene) : scene.budget [] = scene.childCount := by
  simp [budget, childCount, List.length_flatMap]

/-- Where one function is below another on a list, and by an amount at one item,
the sums differ by that amount. -/
theorem sum_add_le_sum
    {α : Type}
    {items : List α}
    {low high : α → Nat}
    (below : ∀ item, low item ≤ high item)
    (chosen : α)
    (member : chosen ∈ items)
    {amount : Nat}
    (gap : low chosen + amount ≤ high chosen) :
    (items.map low).sum + amount ≤ (items.map high).sum := by
  induction items with
  | nil => cases member
  | cons item rest inductionHypothesis =>
      simp only [List.map_cons, List.sum_cons]
      rcases List.mem_cons.1 member with rfl | later
      · have others : (rest.map low).sum ≤ (rest.map high).sum :=
          List.sum_le_sum fun item _ => below item
        omega
      · have here := below item
        have others := inductionHypothesis later
        omega

/-- Listing an owner pays for its links. -/
theorem budget_listed
    {id : OwnerId}
    {listed : List OwnerId}
    (fresh : id ∉ listed)
    (more : List OwnerId)
    (contained : listed ⊆ more)
    (included : id ∈ more) :
    scene.budget more + (scene.entries (.children id)).length ≤
      scene.budget listed := by
  have below : ∀ owner : Owner,
      (if owner.id ∈ more then 0 else owner.children.length) ≤
        if owner.id ∈ listed then 0 else owner.children.length := by
    intro owner
    by_cases member : owner.id ∈ listed
    · rw [if_pos member, if_pos (contained member)]
    · rw [if_neg member]
      split
      · exact Nat.zero_le _
      · exact Nat.le_refl _
  cases found : scene.owner? id with
  | none =>
      simp only [entries, found, Option.map_none, Option.getD_none,
        List.length_nil, Nat.add_zero]
      exact List.sum_le_sum fun owner _ => below owner
  | some owner =>
      have same := scene.id_of_owner? found
      simp only [entries, found, Option.map_some, Option.getD_some]
      refine sum_add_le_sum below owner ?_ ?_
      · rw [Registry.mem_toList, same]
        exact found
      · rw [same, if_pos included, if_neg fresh]
        omega

/-- The most strides that can follow: one for each pending owner, and one for
each link to a child that was not followed yet. -/
def Tour.stridesLeft (scene : Scene) (tour : Tour) : Nat :=
  tour.pending.length + scene.budget tour.listed

namespace Stride

/-- A stride that adds pending owners spends their links. -/
theorem stridesLeft_lt (stride : scene.Stride before after) :
    after.stridesLeft scene < before.stridesLeft scene := by
  cases stride with
  | pass known =>
      simp only [Tour.stridesLeft, List.length_cons]
      omega
  | @visit id pending listed fresh =>
      have extended :=
        listed_prefix_appendNew (listed ++ [id]) (scene.entries (.tags id))
      have paid := scene.budget_listed fresh
        (appendNew (listed ++ [id]) (scene.entries (.tags id)))
        ((List.prefix_append listed [id]).trans extended).subset
        (extended.subset (List.mem_append_right listed List.mem_cons_self))
      simp only [Tour.stridesLeft, List.length_append, List.length_cons]
      omega

theorem listed_extends (stride : scene.Stride before after) :
    before.listed <+: after.listed := by
  cases stride with
  | pass known => exact List.prefix_rfl
  | visit fresh =>
      exact (List.prefix_append _ _).trans (listed_prefix_appendNew _ _)

theorem nodup
    (stride : scene.Stride before after)
    (nodup : before.listed.Nodup) :
    after.listed.Nodup := by
  cases stride with
  | pass known => exact nodup
  | visit fresh =>
      rw [← List.concat_eq_append]
      exact nodup_appendNew (nodup.concat fresh) _

/-- A pending owner stays pending until it is listed. -/
theorem mem_pending
    (stride : scene.Stride before after)
    {id : OwnerId}
    (member : id ∈ before.pending) :
    id ∈ after.listed ∨ id ∈ after.pending := by
  cases stride with
  | pass known =>
      rcases List.mem_cons.1 member with rfl | later
      · exact Or.inl known
      · exact Or.inr later
  | visit fresh =>
      rcases List.mem_cons.1 member with rfl | later
      · exact Or.inl
          (mem_appendNew.2
            (Or.inl (List.mem_append_right _ List.mem_cons_self)))
      · exact Or.inr (List.mem_append_right _ later)

end Stride

/-- What every stride keeps, a walk keeps. -/
theorem keeps_of_strides
    {holds : Tour → Prop}
    (keeps : ∀ {before after}, scene.Stride before after →
      holds before → holds after)
    (strides : Relation.ReflTransGen scene.Stride before after)
    (start : holds before) :
    holds after := by
  induction strides with
  | refl => exact start
  | tail _ stride inductionHypothesis => exact keeps stride inductionHypothesis

/-- A walk that has as many steps as strides can follow goes on until nothing is
pending. -/
theorem strides_walk
    {fuel : Nat}
    {tour : Tour}
    (enough : tour.stridesLeft scene ≤ fuel) :
    Relation.ReflTransGen scene.Stride tour
      ⟨[], scene.walk fuel tour.pending tour.listed⟩ := by
  obtain ⟨pending, listed⟩ := tour
  induction fuel generalizing pending listed with
  | zero =>
      have done : pending.length + scene.budget listed ≤ 0 := enough
      obtain rfl : pending = [] := List.length_eq_zero_iff.1 (by omega)
      exact .refl
  | succ fuel inductionHypothesis =>
      cases pending with
      | nil => exact .refl
      | cons first rest =>
          rw [walk_cons]
          split
          · next known =>
            have stride : scene.Stride ⟨first :: rest, listed⟩ _ := .pass known
            have fewer := stride.stridesLeft_lt
            exact .head stride (inductionHypothesis _ _ (by omega))
          · next fresh =>
            have stride : scene.Stride ⟨first :: rest, listed⟩ _ := .visit fresh
            have fewer := stride.stridesLeft_lt
            exact .head stride (inductionHypothesis _ _ (by omega))

theorem stridesLeft_start (scene : Scene) (top : OwnerId) :
    Tour.stridesLeft scene ⟨[top], []⟩ = scene.childCount + 1 := by
  rw [Tour.stridesLeft, budget_nil, List.length_singleton, Nat.add_comm]

theorem stride_start (scene : Scene) (top : OwnerId) :
    scene.Stride ⟨[top], []⟩
      ⟨scene.entries (.children top) ++ [],
        appendNew [top] (scene.entries (.tags top))⟩ :=
  .visit List.not_mem_nil

/-- After its first stride the walk from an owner has the children of the owner
before it. -/
theorem strides_children (scene : Scene) (top : OwnerId) :
    Relation.ReflTransGen scene.Stride
      ⟨scene.entries (.children top) ++ [],
        appendNew [top] (scene.entries (.tags top))⟩
      ⟨[], scene.subtree top⟩ := by
  have fewer := (scene.stride_start top).stridesLeft_lt
  rw [stridesLeft_start] at fewer
  rw [subtree, walk_cons, if_neg List.not_mem_nil, List.nil_append]
  exact strides_walk (Nat.le_of_lt_succ fewer)

theorem strides_subtree (scene : Scene) (top : OwnerId) :
    Relation.ReflTransGen scene.Stride ⟨[top], []⟩ ⟨[], scene.subtree top⟩ :=
  .head (scene.stride_start top) (scene.strides_children top)

/-! ## What the walk lists -/

/-- The walk lists nothing twice. -/
theorem nodup_subtree (scene : Scene) (top : OwnerId) :
    (scene.subtree top).Nodup :=
  keeps_of_strides Stride.nodup (scene.strides_subtree top) List.nodup_nil

/-- The walk lists the owner it starts from before all others. -/
theorem start_prefix_subtree (scene : Scene) (top : OwnerId) :
    [top] <+: scene.subtree top := by
  have keeps {before after : Tour} (stride : scene.Stride before after)
      (started : [top] <+: before.listed) : [top] <+: after.listed :=
    started.trans stride.listed_extends
  exact keeps_of_strides keeps (scene.strides_children top)
    (listed_prefix_appendNew [top] _)

theorem mem_subtree_self (scene : Scene) (top : OwnerId) :
    top ∈ scene.subtree top :=
  (scene.start_prefix_subtree top).subset List.mem_cons_self

/-- One owner leads to another one by links to children. -/
def Descends (scene : Scene) : OwnerId → OwnerId → Prop :=
  Relation.ReflTransGen fun id child => child ∈ scene.entries (.children id)

/-- Links to children lead from an owner to every pending one, and to every
listed one or to an owner that has it for a tag. -/
structure Tour.Beneath (scene : Scene) (top : OwnerId) (tour : Tour) :
    Prop where
  pending : ∀ id ∈ tour.pending, scene.Descends top id
  listed : ∀ id ∈ tour.listed,
    ∃ last, scene.Descends top last ∧
      (id = last ∨ id ∈ scene.entries (.tags last))

theorem Tour.Beneath.stride
    {top : OwnerId}
    (stride : scene.Stride before after)
    (beneath : before.Beneath scene top) :
    after.Beneath scene top := by
  cases stride with
  | pass known =>
      exact ⟨fun id member =>
        beneath.pending id (List.mem_cons_of_mem _ member), beneath.listed⟩
  | @visit visited pending listed fresh =>
      have downward := beneath.pending visited List.mem_cons_self
      constructor
      · intro id member
        rcases List.mem_append.1 member with child | later
        · exact downward.tail child
        · exact beneath.pending id (List.mem_cons_of_mem visited later)
      · intro id member
        rw [mem_appendNew, List.mem_append, List.mem_singleton] at member
        rcases member with (earlier | same) | tag
        · exact beneath.listed id earlier
        · exact ⟨visited, downward, Or.inl same⟩
        · exact ⟨visited, downward, Or.inr tag⟩

theorem descends_of_mem_subtree
    {top id : OwnerId}
    (member : id ∈ scene.subtree top) :
    ∃ last, scene.Descends top last ∧
      (id = last ∨ id ∈ scene.entries (.tags last)) := by
  have start : Tour.Beneath scene top ⟨[top], []⟩ := by
    refine ⟨fun id isTop => ?_, nofun⟩
    rw [List.mem_singleton.1 isTop]
    exact .refl
  exact (keeps_of_strides Tour.Beneath.stride
    (scene.strides_subtree top) start).listed id member

/-! ## What the walk does not miss -/

/-- The tags of an owner are listed, and its children are listed or pending. -/
structure Tour.Covers (scene : Scene) (id : OwnerId) (tour : Tour) : Prop where
  tags : ∀ tag ∈ scene.entries (.tags id), tag ∈ tour.listed
  children : ∀ child ∈ scene.entries (.children id),
    child ∈ tour.listed ∨ child ∈ tour.pending

theorem Tour.Covers.stride
    {id : OwnerId}
    (stride : scene.Stride before after)
    (covers : before.Covers scene id) :
    after.Covers scene id := by
  constructor
  · exact fun tag isTag => stride.listed_extends.subset (covers.tags tag isTag)
  · intro child isChild
    rcases covers.children child isChild with listed | pending
    · exact Or.inl (stride.listed_extends.subset listed)
    · exact stride.mem_pending pending

theorem Tour.covers_visit
    (scene : Scene)
    (id : OwnerId)
    (pending listed : List OwnerId) :
    Tour.Covers scene id
      ⟨scene.entries (.children id) ++ pending,
        appendNew listed (scene.entries (.tags id))⟩ :=
  ⟨fun _ isTag => mem_appendNew.2 (Or.inr isTag),
    fun _ isChild => Or.inr (List.mem_append_left pending isChild)⟩

/-- Every listed owner that is nobody's tag is covered; one that was listed as a
tag may never be visited. -/
def Tour.CoversListed (scene : Scene) (tour : Tour) : Prop :=
  ∀ id ∈ tour.listed, (∀ host, id ∉ scene.entries (.tags host)) →
    tour.Covers scene id

theorem Tour.CoversListed.stride
    (stride : scene.Stride before after)
    (covers : before.CoversListed scene) :
    after.CoversListed scene := by
  intro id member tagOfNone
  by_cases earlier : id ∈ before.listed
  · exact (covers id earlier tagOfNone).stride stride
  · cases stride with
    | pass known => exact absurd member earlier
    | @visit visited pending listed fresh =>
        rw [mem_appendNew, List.mem_append, List.mem_singleton] at member
        rcases member with (again | rfl) | tag
        · exact absurd again earlier
        · exact Tour.covers_visit scene id pending _
        · exact absurd tag (tagOfNone visited)

/-- Along with the owner it starts from, and with every other one that is
nobody's tag, the walk lists the tags and the children of that owner. -/
theorem lists_of_mem_subtree
    {top id : OwnerId}
    (member : id ∈ scene.subtree top)
    (visited : id = top ∨ ∀ host, id ∉ scene.entries (.tags host)) :
    ∀ entry, entry ∈ scene.entries (.tags id) ∨
      entry ∈ scene.entries (.children id) → entry ∈ scene.subtree top := by
  have covers : Tour.Covers scene id ⟨[], scene.subtree top⟩ := by
    rcases visited with rfl | tagOfNone
    · exact keeps_of_strides Tour.Covers.stride (scene.strides_children id)
        (Tour.covers_visit scene id [] [id])
    · exact keeps_of_strides Tour.CoversListed.stride
        (scene.strides_subtree top) nofun id member tagOfNone
  rintro entry (isTag | isChild)
  · exact covers.tags entry isTag
  · exact (covers.children entry isChild).resolve_right List.not_mem_nil

namespace Linked

/-- A tag has no lists of its own. -/
theorem entries_of_tag
    (linked : scene.Linked loose)
    {id tag : OwnerId}
    (member : tag ∈ scene.entries (.tags id)) :
    scene.entries (.tags tag) = [] ∧ scene.entries (.children tag) = [] := by
  have category : scene.categoryOf tag = some .tag :=
    (scene.home?_eq_some_iff.1 ((linked.listed _ _).1 member).1).1
  have empty : ∀ place : Place, place.host? = some tag →
      scene.entries place = [] := by
    intro place belongs
    rw [List.eq_nil_iff_forall_not_mem]
    intro entry listed
    have host := (linked.host_of_mem listed belongs).2
    rw [category] at host
    cases host
  exact ⟨empty (.tags tag) rfl, empty (.children tag) rfl⟩

/-- An owner that names a parent is listed among its tags or children. -/
theorem mem_of_parentOf
    (linked : scene.Linked loose)
    {id parent : OwnerId}
    (step : scene.parentOf id = some parent) :
    id ∈ scene.entries (.tags parent) ∨
      id ∈ scene.entries (.children parent) := by
  have fixed : id ∉ loose := by
    intro isLoose
    rw [linked.loose_parent id isLoose] at step
    cases step
  rcases linked.child_category id parent step with category | category
  · refine Or.inr (linked.mem_home ?_ fixed)
    simp [home?, category, step]
  · refine Or.inl (linked.mem_home ?_ fixed)
    simp [home?, category, step]

/-- The lists of an owner hold exactly those that name it as their parent. -/
theorem mem_lists_iff
    (linked : scene.Linked loose)
    {id entry : OwnerId}
    {owner : Owner}
    (found : scene.owner? id = some owner) :
    entry ∈ owner.children ++ owner.tags ↔ scene.parentOf entry = some id := by
  have children : scene.entries (.children id) = owner.children := by
    simp [entries, found]
  have tags : scene.entries (.tags id) = owner.tags := by simp [entries, found]
  rw [List.mem_append, ← children, ← tags]
  constructor
  · rintro (child | tag)
    · exact (linked.host_of_mem child rfl).1
    · exact (linked.host_of_mem tag rfl).1
  · exact fun step => (linked.mem_of_parentOf step).symm

theorem climbs_of_descends
    (linked : scene.Linked loose)
    {top id : OwnerId}
    (descends : scene.Descends top id) :
    scene.Climbs id top := by
  induction descends with
  | refl => exact Climbs.refl scene top
  | tail _ link inductionHypothesis =>
      exact Climbs.head (linked.host_of_mem link rfl).1 inductionHypothesis

/-- The walk from an owner lists exactly the owners that lie within it. -/
theorem mem_subtree_iff
    (linked : scene.Linked loose)
    {top id : OwnerId} :
    id ∈ scene.subtree top ↔ scene.Climbs id top := by
  constructor
  · intro member
    obtain ⟨last, descends, same | tag⟩ := descends_of_mem_subtree member
    · rw [same]
      exact linked.climbs_of_descends descends
    · exact Climbs.head (linked.host_of_mem tag rfl).1
        (linked.climbs_of_descends descends)
  · intro climbs
    induction climbs using Relation.ReflTransGen.head_induction_on with
    | refl => exact scene.mem_subtree_self top
    | @head id parent step rest inductionHypothesis =>
        have listed := linked.mem_of_parentOf step
        -- A tag has no entries, so the parent is not one.
        have tagOfNone : ∀ host, parent ∉ scene.entries (.tags host) := by
          intro host isTag
          obtain ⟨tagless, childless⟩ := linked.entries_of_tag isTag
          simp [tagless, childless] at listed
        exact lists_of_mem_subtree inductionHypothesis
          (Or.inr tagOfNone) id listed

end Linked

/-! ## Topmost owners -/

theorem nodup_topLevel (scene : Scene) (ids : List OwnerId) :
    (scene.topLevel ids).Nodup :=
  (nodup_distinct _).filter _

/-- The topmost owners of a list are those that exist and lie within no other
one of it. -/
theorem mem_topLevel_iff
    (acyclic : scene.Acyclic)
    {ids : List OwnerId}
    {id : OwnerId} :
    id ∈ scene.topLevel ids ↔
      (id ∈ ids ∧ scene.contains id) ∧
        ∀ other ∈ ids, scene.contains other → scene.Climbs id other →
          other = id := by
  simp only [topLevel, List.mem_filter, mem_distinct, Bool.not_eq_true',
    List.any_eq_false, Bool.and_eq_true, decide_eq_true_eq,
    isWithin_iff acyclic, not_and]
  refine and_congr_right fun _ => ?_
  constructor
  · intro none other member known climbs
    by_contra differs
    exact none other ⟨member, known⟩ differs climbs
  · intro alone other member differs climbs
    exact differs (alone other member.1 member.2 climbs)

theorem contains_of_mem_topLevel
    {ids : List OwnerId}
    {id : OwnerId}
    (member : id ∈ scene.topLevel ids) :
    scene.contains id = true := by
  rw [topLevel, List.mem_filter, mem_distinct, List.mem_filter] at member
  exact member.1.2

/-- No topmost owner lies within another one. -/
theorem eq_of_climbs_topLevel
    (acyclic : scene.Acyclic)
    {ids : List OwnerId}
    {id other : OwnerId}
    (member : id ∈ scene.topLevel ids)
    (otherMember : other ∈ scene.topLevel ids)
    (climbs : scene.Climbs id other) :
    other = id := by
  obtain ⟨listed, known⟩ := ((mem_topLevel_iff acyclic).1 otherMember).1
  exact ((mem_topLevel_iff acyclic).1 member).2 other listed known climbs

/-- Among the existing owners of a list that lie above an owner, one is the
highest. -/
theorem exists_highest
    (acyclic : scene.Acyclic)
    {ids : List OwnerId}
    {id above : OwnerId}
    (listed : above ∈ ids)
    (known : scene.contains above = true)
    (climbs : scene.Climbs id above) :
    ∃ highest ∈ ids, scene.contains highest = true ∧ scene.Climbs id highest ∧
      ∀ other ∈ ids, scene.contains other = true → scene.Climbs highest other →
        other = highest := by
  induction ids generalizing above with
  | nil => cases listed
  | cons first rest inductionHypothesis =>
      by_cases further : ∃ above ∈ rest,
        scene.contains above = true ∧ scene.Climbs id above
      · obtain ⟨later, isLater, laterKnown, toLater⟩ := further
        obtain ⟨highest, isRest, highestKnown, toHighest, alone⟩ :=
          inductionHypothesis isLater laterKnown toLater
        by_cases higher : scene.contains first = true ∧
          scene.Climbs highest first
        · obtain ⟨firstKnown, onward⟩ := higher
          refine ⟨first, List.mem_cons_self, firstKnown,
            toHighest.trans onward, ?_⟩
          intro other isOther otherKnown toOther
          rcases List.mem_cons.1 isOther with same | isRest
          · exact same
          · obtain rfl := alone other isRest otherKnown (onward.trans toOther)
            exact onward.antisymm acyclic toOther
        · refine ⟨highest, List.mem_cons_of_mem first isRest, highestKnown,
            toHighest, ?_⟩
          intro other isOther otherKnown toOther
          rcases List.mem_cons.1 isOther with rfl | isRest
          · exact absurd ⟨otherKnown, toOther⟩ higher
          · exact alone other isRest otherKnown toOther
      · rcases List.mem_cons.1 listed with rfl | isRest
        · refine ⟨above, List.mem_cons_self, known, climbs, ?_⟩
          intro other isOther otherKnown toOther
          rcases List.mem_cons.1 isOther with same | isRest
          · exact same
          · exact absurd
              ⟨other, isRest, otherKnown, climbs.trans toOther⟩ further
        · exact absurd ⟨above, isRest, known, climbs⟩ further

/-- What lies within an existing owner of a list lies within a topmost one. -/
theorem exists_topLevel
    (acyclic : scene.Acyclic)
    {ids : List OwnerId}
    {id above : OwnerId}
    (listed : above ∈ ids)
    (known : scene.contains above = true)
    (climbs : scene.Climbs id above) :
    ∃ top ∈ scene.topLevel ids, scene.Climbs id top := by
  obtain ⟨top, isListed, topKnown, toTop, alone⟩ :=
    exists_highest acyclic listed known climbs
  exact ⟨top, (mem_topLevel_iff acyclic).2 ⟨⟨isListed, topKnown⟩, alone⟩, toTop⟩

theorem exists_topLevel_iff
    (acyclic : scene.Acyclic)
    {ids : List OwnerId}
    (known : ∀ id ∈ ids, scene.contains id = true)
    {id : OwnerId} :
    (∃ top ∈ scene.topLevel ids, scene.Climbs id top) ↔
      ∃ above ∈ ids, scene.Climbs id above := by
  constructor
  · rintro ⟨top, isTop, climbs⟩
    exact ⟨top, ((mem_topLevel_iff acyclic).1 isTop).1.1, climbs⟩
  · rintro ⟨above, isListed, climbs⟩
    exact exists_topLevel acyclic isListed (known above isListed) climbs

theorem isEmpty_topLevel
    (acyclic : scene.Acyclic)
    {ids : List OwnerId}
    (known : ∀ id ∈ ids, scene.contains id = true) :
    (scene.topLevel ids).isEmpty = ids.isEmpty := by
  cases ids with
  | nil => rfl
  | cons first rest =>
      obtain ⟨top, isTop, _⟩ := exists_topLevel acyclic List.mem_cons_self
        (known first List.mem_cons_self) (.refl scene first)
      rw [List.isEmpty_cons, List.isEmpty_eq_false_iff]
      exact List.ne_nil_of_mem isTop

/-- Whether an owner lies within one of a list. -/
def withinAny (scene : Scene) (ids : List OwnerId) (id : OwnerId) : Bool :=
  ids.any fun above => scene.isWithin id above

theorem withinAny_iff
    (acyclic : scene.Acyclic)
    {ids : List OwnerId}
    {id : OwnerId} :
    scene.withinAny ids id = true ↔ ∃ above ∈ ids, scene.Climbs id above := by
  simp [withinAny, isWithin_iff acyclic]

section Removal

variable (reach : ∀ {top id : OwnerId}, id ∈ scene.subtree top ↔
  scene.Climbs id top)

include reach

/-- A removal takes away everything that lies within the given owners. -/
theorem mem_removalClosure {roots : List OwnerId} {id : OwnerId} :
    id ∈ scene.removalClosure roots ↔ ∃ root ∈ roots, scene.Climbs id root := by
  simp [removalClosure, reach]

/-- The removal of the topmost owners of a list takes the others with them. -/
theorem removalClosure_topLevel (acyclic : scene.Acyclic) (ids : List OwnerId) :
    scene.removalClosure (scene.topLevel ids) =
      scene.removalClosure (ids.filter scene.contains) := by
  refine Std.ExtTreeSet.ext_mem fun id => ?_
  rw [mem_removalClosure reach, mem_removalClosure reach]
  constructor
  · rintro ⟨top, isTop, climbs⟩
    exact ⟨top,
      List.mem_filter.2 ((mem_topLevel_iff acyclic).1 isTop).1, climbs⟩
  · rintro ⟨root, isRoot, climbs⟩
    obtain ⟨listed, known⟩ := List.mem_filter.1 isRoot
    exact exists_topLevel acyclic listed known climbs

end Removal

theorem Linked.mem_removalClosure
    (linked : scene.Linked loose)
    {roots : List OwnerId}
    {id : OwnerId} :
    id ∈ scene.removalClosure roots ↔ ∃ root ∈ roots, scene.Climbs id root :=
  Scene.mem_removalClosure linked.mem_subtree_iff

end Scene
end MotionScene
