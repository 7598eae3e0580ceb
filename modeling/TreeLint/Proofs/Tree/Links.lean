import Mathlib.Logic.Relation
import TreeLint.Tree.Loading

/-! The two ways in which an arena stores its links agree: children lists and parent links name
the same edges, and no chain of parents returns to its start. Such a chain is then shorter than
the arena, so the bounded walk upward never meets its bound.
-/

namespace TreeLint.Tree

open Relation

-----------------------------------------------------------------------------------------
-- Links as relations
-----------------------------------------------------------------------------------------

/-- The first node is the parent of the second. -/
def IsParent (tree : Tree) (upper lower : NodeId) : Prop :=
  tree.parent? lower = some upper

/-- The first node is a strict ancestor of the second. -/
def Above (tree : Tree) : NodeId → NodeId → Prop :=
  TransGen tree.IsParent

/-- The children lists and the parent links of an arena name the same edges, each of them once,
and no node is its own ancestor.
-/
structure Linked (tree : Tree) : Prop where
  agree : ∀ {parent child}, child ∈ tree.childIds parent ↔ tree.parent? child = some parent
  unique : ∀ id, (tree.childIds id).Nodup
  acyclic : ∀ id, ¬tree.Above id id

/-- A linked arena whose root is inside it and hangs below nothing. -/
structure Coherent (tree : Tree) : Prop extends Linked tree where
  rootPresent : tree.contains tree.root
  rootTop : tree.parent? tree.root = none

/-- A number belongs to a tree exactly if there is a node with it. -/
theorem contains_iff {tree : Tree} {id : NodeId} : tree.contains id ↔ id < tree.size := by
  simp [contains]

/-- Exactly the numbers of the tree have a node. -/
theorem node?_eq_none_iff {tree : Tree} {id : NodeId}
    : tree.node? id = none ↔ tree.size ≤ id := by
  simp [node?, size]

/-- Only a node of the arena has a parent. -/
theorem lt_size_of_parent? {tree : Tree} {id parent : NodeId}
    (linked : tree.parent? id = some parent)
    : id < tree.size := by
  refine Nat.lt_of_not_le fun outside => ?_
  simp [parent?, node?_eq_none_iff.mpr outside] at linked

/-- Only a node of the arena has children. -/
theorem lt_size_of_mem_childIds {tree : Tree} {id child : NodeId}
    (member : child ∈ tree.childIds id)
    : id < tree.size := by
  refine Nat.lt_of_not_le fun outside => ?_
  simp [childIds, node?_eq_none_iff.mpr outside] at member

/-- Children lists stay inside the arena. -/
theorem Linked.child_lt {tree : Tree} (linked : tree.Linked) {parent child : NodeId}
    (member : child ∈ tree.childIds parent)
    : child < tree.size :=
  lt_size_of_parent? (linked.agree.mp member)

/-- Parent links stay inside the arena. -/
theorem Linked.parent_lt {tree : Tree} (linked : tree.Linked) {parent child : NodeId}
    (below : tree.parent? child = some parent)
    : parent < tree.size :=
  lt_size_of_mem_childIds (linked.agree.mpr below)

/-- Both ends of a chain of parents are inside the arena. -/
theorem Linked.above_lt {tree : Tree} (linked : tree.Linked) {upper lower : NodeId}
    (above : tree.Above upper lower)
    : upper < tree.size ∧ lower < tree.size := by
  obtain ⟨next, first, _⟩ := TransGen.head'_iff.mp above
  obtain ⟨last, _, final⟩ := TransGen.tail'_iff.mp above
  exact ⟨linked.parent_lt first, lt_size_of_parent? final⟩

/-- A strict ancestor of a node is its parent or a strict ancestor of its parent. -/
theorem above_iff {tree : Tree} {upper lower : NodeId}
    : tree.Above upper lower
      ↔ ∃ parent,
          tree.parent? lower = some parent ∧ (upper = parent ∨ tree.Above upper parent) := by
  constructor
  · intro above
    obtain ⟨parent, upward, last⟩ := TransGen.tail'_iff.mp above
    refine ⟨parent, last, ?_⟩
    rcases reflTransGen_iff_eq_or_transGen.mp upward with same | strict
    · exact Or.inl same.symm
    · exact Or.inr strict
  · rintro ⟨parent, last, rfl | strict⟩
    · exact TransGen.single last
    · exact TransGen.tail strict last

/-- Of two nodes at or above a third, one is at or above the other: a node has one parent. -/
theorem above_comparable {tree : Tree} {first second lower : NodeId}
    (left : ReflTransGen tree.IsParent first lower)
    (right : ReflTransGen tree.IsParent second lower)
    : ReflTransGen tree.IsParent first second ∨ ReflTransGen tree.IsParent second first := by
  induction left with
  | refl => exact Or.inr right
  | @tail middle lower upward last ih =>
      rcases ReflTransGen.cases_tail right with same | ⟨other, above, otherLast⟩
      · subst same
        exact Or.inl (upward.tail last)
      · have same : middle = other := Option.some.inj (last.symm.trans otherLast)
        exact ih (same ▸ above)

-----------------------------------------------------------------------------------------
-- The walk upward ends
-----------------------------------------------------------------------------------------

/-- A list of distinct numbers below a bound that leaves one of them out is shorter than it. -/
theorem length_lt_of_nodup {path : List NodeId} {id bound : Nat}
    (distinct : (id :: path).Nodup) (bounded : ∀ other ∈ id :: path, other < bound)
    : path.length < bound := by
  have inside : (id :: path) ⊆ List.range bound := by
    intro other member
    exact List.mem_range.mpr (bounded other member)
  have short := distinct.length_le_of_subset inside
  simp only [List.length_cons, List.length_range] at short
  omega

/-- With as many steps left as there are unvisited nodes, more steps find no more ancestors.
The path holds the nodes below that the walk came through.
-/
private theorem Linked.ancestorsWithin_path {tree : Tree} (linked : tree.Linked)
    (bound more : Nat) (id : NodeId) (path : List NodeId)
    (present : id < tree.size) (visited : ∀ lower ∈ path, tree.Above id lower)
    (distinct : path.Nodup) (enough : tree.size ≤ bound + path.length)
    : tree.ancestorsWithin (bound + more) id = tree.ancestorsWithin bound id := by
  induction bound generalizing id path with
  | zero =>
      have fresh : id ∉ path := fun member => linked.acyclic id (visited id member)
      have bounded : ∀ other ∈ id :: path, other < tree.size := by
        intro other member
        rcases List.mem_cons.mp member with rfl | member
        · exact present
        · exact (linked.above_lt (visited other member)).2
      have short := length_lt_of_nodup (List.nodup_cons.mpr ⟨fresh, distinct⟩) bounded
      omega
  | succ bound ih =>
      rw [Nat.add_right_comm, ancestorsWithin, ancestorsWithin]
      cases upward : tree.parent? id with
      | none => rfl
      | some parent =>
          have step : tree.IsParent parent id := upward
          have fresh : id ∉ path := fun member => linked.acyclic id (visited id member)
          have next := ih parent (id :: path) (linked.parent_lt upward)
            (by
              intro lower member
              rcases List.mem_cons.mp member with rfl | member
              · exact TransGen.single step
              · exact TransGen.head step (visited lower member))
            (List.nodup_cons.mpr ⟨fresh, distinct⟩)
            (by simp only [List.length_cons]; omega)
          exact congrArg (parent :: ·) next

/-- The walk upward has ended within its bound: more steps find no more ancestors. -/
theorem Linked.ancestorsWithin_eq {tree : Tree} (linked : tree.Linked) {bound : Nat}
    (enough : tree.size ≤ bound) (id : NodeId)
    : tree.ancestorsWithin bound id = tree.ancestors id := by
  by_cases present : id < tree.size
  · have stable := linked.ancestorsWithin_path tree.size (bound - tree.size) id [] present
      (by simp) List.nodup_nil (by simp)
    rwa [Nat.add_sub_cancel' enough] at stable
  · have outside : tree.parent? id = none := by
      simp [parent?, node?_eq_none_iff.mpr (Nat.le_of_not_lt present)]
    have empty (steps : Nat) : tree.ancestorsWithin steps id = [] := by
      cases steps with
      | zero => rfl
      | succ steps => rw [ancestorsWithin, outside]
    rw [ancestors, empty, empty]

/-- The ancestors of a node are its parent and the ancestors of its parent. -/
theorem Linked.ancestors_eq {tree : Tree} (linked : tree.Linked) (id : NodeId)
    : tree.ancestors id
      = match tree.parent? id with
        | none => []
        | some parent => parent :: tree.ancestors parent := by
  rw [← linked.ancestorsWithin_eq (Nat.le_succ tree.size) id, ancestorsWithin]
  rfl

/-- The walk upward meets exactly the strict ancestors. -/
theorem Linked.mem_ancestors {tree : Tree} (linked : tree.Linked) {upper lower : NodeId}
    : upper ∈ tree.ancestors lower ↔ tree.Above upper lower := by
  constructor
  · intro member
    have sound (bound : Nat) : ∀ lower, upper ∈ tree.ancestorsWithin bound lower
        → tree.Above upper lower := by
      induction bound with
      | zero => intro lower member; simp [ancestorsWithin] at member
      | succ bound ih =>
          intro lower member
          rw [ancestorsWithin] at member
          cases upward : tree.parent? lower with
          | none => simp [upward] at member
          | some parent =>
              rw [upward] at member
              refine above_iff.mpr ⟨parent, upward, ?_⟩
              exact (List.mem_cons.mp member).imp_right (ih parent)
    exact sound tree.size lower member
  · intro above
    induction above with
    | single last =>
        rw [linked.ancestors_eq, show tree.parent? _ = some upper from last]
        exact List.mem_cons_self
    | tail _ last ih =>
        rw [linked.ancestors_eq, show tree.parent? _ = some _ from last]
        exact List.mem_cons_of_mem _ ih

/-- The test for a strict ancestor is right. -/
theorem Linked.isAncestor_iff {tree : Tree} (linked : tree.Linked) {upper lower : NodeId}
    : tree.isAncestor upper lower ↔ tree.Above upper lower := by
  rw [isAncestor, List.contains_iff_mem, linked.mem_ancestors]

-----------------------------------------------------------------------------------------
-- Trees with the same links
-----------------------------------------------------------------------------------------

/-- Being linked depends on the links alone. -/
theorem Linked.congr {tree other : Tree} (linked : tree.Linked)
    (parents : ∀ id, other.parent? id = tree.parent? id)
    (children : ∀ id, other.childIds id = tree.childIds id)
    : other.Linked := by
  have same : other.IsParent = tree.IsParent := by
    funext upper lower
    simp only [IsParent, parents]
  refine ⟨?_, ?_, ?_⟩
  · intro parent child
    rw [children, parents]
    exact linked.agree
  · intro id
    rw [children]
    exact linked.unique id
  · intro id
    rw [Above, same]
    exact linked.acyclic id

/-- A chain of parents in one tree is a chain in another that agrees with it on the parent of the
lowest node and on those of everything above.
-/
theorem Above.transfer {tree other : Tree} {upper lower : NodeId}
    (above : other.Above upper lower)
    (here : other.parent? lower = tree.parent? lower)
    (upward : ∀ id, tree.Above id lower → other.parent? id = tree.parent? id)
    : tree.Above upper lower := by
  induction above with
  | single last => exact TransGen.single (here.symm.trans last)
  | @tail middle lower _ last ih =>
      have step : tree.IsParent middle lower := here.symm.trans last
      refine TransGen.tail (ih ?_ ?_) step
      · exact upward middle (TransGen.single step)
      · exact fun id above => upward id (TransGen.tail above step)

end TreeLint.Tree
