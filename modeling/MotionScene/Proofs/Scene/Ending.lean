import MotionScene.Proofs.Document.Opening

/-!
# The walk ends on any scene

Validation walks down from the root before anything is known of the links.  They
may run in circles, lead to owners that do not exist, or share children and
tags; the walk still comes to an end, and what it lists can be reached by links.
Only an owner that is a child and a tag at once can hide others from it: it may
be listed as a tag and never be visited.
-/

namespace MotionScene
namespace Scene

variable {scene : Scene}

/-! ## Runs of strides -/

/-- A run has no more strides than are left where it starts. -/
theorem length_le_stridesLeft
    {tour : Tour}
    {later : List Tour}
    (run : (tour :: later).IsChain scene.Stride) :
    later.length ≤ tour.stridesLeft scene := by
  induction later generalizing tour with
  | nil => exact Nat.zero_le _
  | cons next rest inductionHypothesis =>
      obtain ⟨stride, onward⟩ := List.isChain_cons_cons.1 run
      have fewer := stride.stridesLeft_lt
      have bound := inductionHypothesis onward
      rw [List.length_cons]
      omega

/-- Whether an owner is passed over or visited is told by the tour. -/
theorem rightUnique_stride (scene : Scene) :
    Relator.RightUnique scene.Stride := by
  intro before after other stride again
  cases stride with
  | pass known =>
      cases again with
      | pass _ => rfl
      | visit fresh => exact absurd known fresh
  | visit fresh =>
      cases again with
      | pass known => exact absurd known fresh
      | visit _ => rfl

/-- Where nothing is pending, no stride follows. -/
theorem eq_of_strides_nil
    {listed : List OwnerId}
    {after : Tour}
    (strides : Relation.ReflTransGen scene.Stride ⟨[], listed⟩ after) :
    after = ⟨[], listed⟩ := by
  rcases strides.cases_head with same | ⟨_, stride, _⟩
  · exact same.symm
  · cases stride

/-- From an owner there is one run that leaves nothing pending, and it lists
what the walk lists. -/
theorem strides_to_end_iff {start : OwnerId} {listing : List OwnerId} :
    Relation.ReflTransGen scene.Stride ⟨[start], []⟩ ⟨[], listing⟩ ↔
      listing = scene.subtree start := by
  constructor
  · intro strides
    have walked := scene.strides_subtree start
    rcases strides.total_of_right_unique scene.rightUnique_stride walked with
      onward | onward
    · exact (congrArg Tour.listed (eq_of_strides_nil onward)).symm
    · exact congrArg Tour.listed (eq_of_strides_nil onward)
  · rintro rfl
    exact scene.strides_subtree start

/-! ## What can be reached -/

/-- One owner leads to another one by links to children and tags. -/
def Reaches (scene : Scene) : OwnerId → OwnerId → Prop :=
  Relation.ReflTransGen fun id entry =>
    entry ∈ scene.entries (.children id) ∨ entry ∈ scene.entries (.tags id)

theorem Descends.reaches
    {start last : OwnerId}
    (descends : scene.Descends start last) :
    scene.Reaches start last :=
  Relation.ReflTransGen.mono (fun _ _ => Or.inl) _ _ descends

theorem reaches_of_mem_subtree
    {start id : OwnerId}
    (member : id ∈ scene.subtree start) :
    scene.Reaches start id := by
  obtain ⟨last, descends, rfl | tag⟩ := descends_of_mem_subtree member
  · exact descends.reaches
  · exact Relation.ReflTransGen.tail descends.reaches (Or.inr tag)

/-- No list of children has an entry in common with a list of tags. -/
def Unmixed (scene : Scene) : Prop :=
  ∀ owner ∈ scene.owners.toList, ∀ other ∈ scene.owners.toList,
    ∀ id ∈ owner.children, id ∉ other.tags

instance (scene : Scene) : Decidable scene.Unmixed :=
  inferInstanceAs (Decidable (∀ owner ∈ scene.owners.toList, _))

namespace Unmixed

theorem not_mem_tags
    (unmixed : scene.Unmixed)
    {id host other : OwnerId}
    (child : id ∈ scene.entries (.children host)) :
    id ∉ scene.entries (.tags other) := by
  intro tag
  obtain ⟨parent, isParent, isChild⟩ := Demands.owner_of_mem_children child
  obtain ⟨object, isObject, isTag⟩ := Demands.owner_of_mem_tags tag
  have apart :=
    forall_mem_toList.1 (forall_mem_toList.1 unmixed host parent isParent)
  exact apart other object isObject id isChild isTag

/-- Everything that links to children lead to is visited, so it is listed and
its tags are. -/
theorem mem_subtree
    (unmixed : scene.Unmixed)
    {start last : OwnerId}
    (descends : scene.Descends start last) :
    last ∈ scene.subtree start ∧ ∀ tag ∈ scene.entries (.tags last),
      tag ∈ scene.subtree start := by
  have visited : ∀ id, scene.Descends start id →
      id = start ∨ ∀ host, id ∉ scene.entries (.tags host) := by
    intro id leads
    rcases Relation.ReflTransGen.cases_tail leads with same | ⟨_, _, child⟩
    · exact Or.inl same
    · exact Or.inr fun _ => unmixed.not_mem_tags child
  have listed : last ∈ scene.subtree start := by
    induction descends with
    | refl => exact scene.mem_subtree_self start
    | tail leads child inductionHypothesis =>
        exact lists_of_mem_subtree inductionHypothesis (visited _ leads) _
          (Or.inr child)
  exact ⟨listed, fun tag isTag =>
    lists_of_mem_subtree listed (visited last descends) tag (Or.inl isTag)⟩

end Unmixed

/-- The walk ends on every scene, whichever owner it starts from: a run of its
strides has at most one stride more than there are links to children, and the
only list that the strides end with is the one the walk gives.  The list starts
with the owner, repeats nothing and names only what links lead to.  If nothing
is a child and a tag at once, it names everything that links to children lead
to, and the tags of that. -/
theorem walk_ends (scene : Scene) (start : OwnerId) :
    (∀ later, (⟨[start], []⟩ :: later).IsChain scene.Stride →
      later.length ≤ scene.childCount + 1) ∧
    (∀ listing, Relation.ReflTransGen scene.Stride ⟨[start], []⟩ ⟨[], listing⟩ ↔
      listing = scene.subtree start) ∧
    (scene.subtree start).head? = some start ∧
    (scene.subtree start).Nodup ∧
    (∀ id ∈ scene.subtree start, scene.Reaches start id) ∧
    (scene.Unmixed → ∀ last, scene.Descends start last →
      last ∈ scene.subtree start ∧
        ∀ tag ∈ scene.entries (.tags last), tag ∈ scene.subtree start) := by
  refine ⟨fun later run => ?_, fun listing => strides_to_end_iff, ?_,
    scene.nodup_subtree start, fun id => reaches_of_mem_subtree,
    fun unmixed last => unmixed.mem_subtree⟩
  · rw [← scene.stridesLeft_start start]
    exact length_le_stridesLeft run
  · obtain ⟨rest, split⟩ := scene.start_prefix_subtree start
    rw [← split]
    rfl

end Scene

/-- Links in a tangle: the root is a child of itself and of its child, another
child is shared by both, a tag is shared as well, and one child does not
exist. -/
def Document.tangled : Snapshot where
  id := ⟨8⟩
  root := ⟨1⟩
  styles := []
  tools := []
  selection := []
  clock := .new {}
  owners := [
    { id := ⟨1⟩
      kind := .object .empty
      properties := []
      parent := some ⟨1⟩
      children := [⟨2⟩, ⟨3⟩, ⟨1⟩]
      tags := [⟨5⟩] },
    { id := ⟨2⟩
      kind := .object .empty
      properties := []
      parent := some ⟨1⟩
      children := [⟨3⟩, ⟨1⟩, ⟨9⟩] },
    { id := ⟨3⟩, kind := .object .empty, properties := [], parent := some ⟨2⟩,
      tags := [⟨5⟩, ⟨6⟩] },
    { id := ⟨5⟩, kind := .tag .style, properties := [], parent := some ⟨3⟩ },
    { id := ⟨6⟩, kind := .tag .style, properties := [], parent := some ⟨3⟩ }]

namespace Scene

theorem tangled_walk_ends :
    let scene := (Document.unchecked Document.tangled {}).scene
    scene.Unmixed ∧ scene.Descends ⟨1⟩ ⟨9⟩ ∧
      scene.subtree ⟨1⟩ = [⟨1⟩, ⟨5⟩, ⟨2⟩, ⟨3⟩, ⟨6⟩, ⟨9⟩] ∧
      (⟨9⟩ : OwnerId) ∈ scene.subtree ⟨1⟩ := by
  intro scene
  have unmixed : scene.Unmixed := by decide
  have descends : scene.Descends ⟨1⟩ ⟨9⟩ :=
    .tail
      (.single (by decide : (⟨2⟩ : OwnerId) ∈ scene.entries (.children ⟨1⟩)))
      (by decide)
  obtain ⟨_, _, _, _, _, complete⟩ := walk_ends scene ⟨1⟩
  exact ⟨unmixed, descends, rfl, (complete unmixed ⟨9⟩ descends).1⟩

-- An owner that was listed as a tag is passed over as a child, and its own
-- child is missed.
example :
    (Document.unchecked { Document.tangled with owners := [
      { id := ⟨1⟩, kind := .object .empty, properties := [], children := [⟨2⟩],
        tags := [⟨2⟩] },
      { id := ⟨2⟩, kind := .object .empty, properties := [],
        children := [⟨3⟩] }] } {}).scene.subtree ⟨1⟩ = [⟨1⟩, ⟨2⟩] :=
  rfl

end Scene
end MotionScene
