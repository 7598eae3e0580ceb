import TreeLint.Proofs.Tree.Subtrees

/-! The order of the document: a node comes before what hangs below it, and a child with all that
hangs below it comes before the later children. No two nodes come before each other, and the nodes of
a subtree are listed in this order.
-/

namespace TreeLint

open Relation

/-- Two members of a list without repetitions stand in one order only. -/
theorem sublist_pair_asymm {items : List α} (unique : items.Nodup) {first second : α}
    (ordered : [first, second].Sublist items)
    : ¬[second, first].Sublist items := by
  induction items with
  | nil => simp at ordered
  | cons item rest ih =>
      obtain ⟨fresh, unique⟩ := List.nodup_cons.mp unique
      intro reversed
      cases ordered with
      | cons _ ordered =>
          cases reversed with
          | cons _ reversed => exact ih unique ordered reversed
          | cons_cons _ _ => exact fresh (ordered.subset (by simp))
      | cons_cons _ _ =>
          cases reversed with
          | cons _ reversed => exact fresh (reversed.subset (by simp))
          | cons_cons _ last => exact fresh (List.singleton_sublist.mp last)

namespace Tree

/-- The first node comes before the second in the document: it is above the second, or two children
of one node stand in this order, and the nodes are these children or hang below them.
-/
def ComesBefore (tree : Tree) (first second : NodeId) : Prop :=
  tree.Above first second
  ∨ ∃ parent left right,
    [left, right].Sublist (tree.childIds parent)
    ∧ ReflTransGen tree.IsParent left first
    ∧ ReflTransGen tree.IsParent right second

variable {tree : Tree}

/-- Two children in order are different children of one node. -/
theorem Linked.siblings_of_sublist (linked : tree.Linked) {parent left right : NodeId}
    (ordered : [left, right].Sublist (tree.childIds parent))
    : tree.parent? left = some parent ∧ tree.parent? right = some parent ∧ left ≠ right :=
  ⟨linked.agree.mp (ordered.subset (by simp)), linked.agree.mp (ordered.subset (by simp)),
    by simpa using ordered.nodup (linked.unique parent)⟩

/-- Nothing hangs below two children of one node. -/
theorem Linked.not_below_both (linked : tree.Linked) {parent left right lower : NodeId}
    (ordered : [left, right].Sublist (tree.childIds parent))
    (belowLeft : ReflTransGen tree.IsParent left lower)
    (belowRight : ReflTransGen tree.IsParent right lower)
    : False := by
  obtain ⟨leftUp, rightUp, distinct⟩ := linked.siblings_of_sublist ordered
  exact linked.siblings_disjoint leftUp rightUp distinct belowLeft belowRight

/-- If two nodes stand below siblings in one order and below siblings in the opposite order, the
siblings at or above the first node are the same one.
-/
theorem Linked.siblings_meet (linked : tree.Linked)
    {parent left right other otherLeft otherRight first second : NodeId}
    (ordered : [left, right].Sublist (tree.childIds parent))
    (otherOrdered : [otherLeft, otherRight].Sublist (tree.childIds other))
    (belowLeft : ReflTransGen tree.IsParent left first)
    (belowRight : ReflTransGen tree.IsParent right second)
    (belowOtherLeft : ReflTransGen tree.IsParent otherLeft second)
    (belowOtherRight : ReflTransGen tree.IsParent otherRight first)
    : left = otherRight := by
  obtain ⟨leftUp, rightUp, _⟩ := linked.siblings_of_sublist ordered
  obtain ⟨otherLeftUp, otherRightUp, _⟩ := linked.siblings_of_sublist otherOrdered
  rcases above_comparable belowLeft belowOtherRight with downward | downward
  · rcases downward.cases_tail with same | ⟨middle, upward, last⟩
    · exact same.symm
    · -- The other parent stands below `left`, and so do both of its children.
      obtain rfl : middle = other := Option.some.inj (last.symm.trans otherRightUp)
      exact (linked.not_below_both ordered ((upward.tail otherLeftUp).trans belowOtherLeft)
        belowRight).elim
  · rcases downward.cases_tail with same | ⟨middle, upward, last⟩
    · exact same
    · obtain rfl : middle = parent := Option.some.inj (last.symm.trans leftUp)
      exact (linked.not_below_both otherOrdered belowOtherLeft
        ((upward.tail rightUp).trans belowRight)).elim

/-- No two nodes come before each other, and none before itself. -/
theorem Linked.comesBefore_asymm (linked : tree.Linked) {first second : NodeId}
    (before : tree.ComesBefore first second)
    : ¬tree.ComesBefore second first := by
  rintro (above | ⟨parent, left, right, ordered, belowLeft, belowRight⟩)
  · rcases before with upper | ⟨parent, left, right, ordered, belowLeft, belowRight⟩
    · exact linked.acyclic first (upper.trans above)
    · exact linked.not_below_both ordered belowLeft (belowRight.trans above.to_reflTransGen)
  · rcases before with upper | ⟨_, _, _, otherOrdered, otherLeft, otherRight⟩
    · exact linked.not_below_both ordered belowLeft (belowRight.trans upper.to_reflTransGen)
    · have meet := linked.siblings_meet otherOrdered ordered otherLeft otherRight belowLeft
        belowRight
      have meetBack := linked.siblings_meet ordered otherOrdered belowLeft belowRight otherLeft
        otherRight
      subst meet meetBack
      have same := (linked.siblings_of_sublist ordered).1.symm.trans
        (linked.siblings_of_sublist otherOrdered).2.1
      rw [← Option.some.inj same] at otherOrdered
      exact sublist_pair_asymm (linked.unique parent) ordered otherOrdered

/-- The nodes of a subtree are listed in the order of the document, by induction on the subtree. -/
theorem Linked.nodes_inOrder (linked : tree.Linked) {found : Subtree}
    (shown : tree.subtree? found.id = some found)
    : found.nodes.Pairwise fun earlier later => tree.ComesBefore earlier.id later.id := by
  induction found using Subtree.induction with
  | step found ih =>
      have below := fun child (member : child ∈ found.children) inner
          (inside : inner ∈ child.nodes) =>
        linked.below_of_mem_nodes (subtree?_of_mem_children shown member).1 inside
      have siblings : found.children.Pairwise fun left right =>
          [left.id, right.id].Sublist (tree.childIds found.id) := by
        rw [← subtree?_children shown]
        exact List.pairwise_iff_forall_sublist.mpr fun ordered => ordered.map Subtree.id
      rw [Subtree.nodes_eq]
      refine List.pairwise_cons.mpr ⟨?_, List.pairwise_flatMap.mpr ⟨?_, ?_⟩⟩
      · intro inner member
        obtain ⟨child, among, inside⟩ := List.mem_flatMap.mp member
        have step : tree.IsParent found.id child.id := linked.parent?_of_mem_children shown among
        exact .inl (TransGen.head' step (below child among inner inside))
      · exact fun child member => ih child member (subtree?_of_mem_children shown member).1
      · refine siblings.imp_of_mem ?_
        intro left right leftAmong rightAmong ordered first inLeft second inRight
        exact .inr ⟨found.id, left.id, right.id, ordered, below left leftAmong first inLeft,
          below right rightAmong second inRight⟩

end Tree

end TreeLint
