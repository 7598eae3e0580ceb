import Mathlib.Data.Set.Card
import TreeLint.Proofs.Tree.Code

/-! The attached part of a tree: the root and what hangs below it. The walk from the root counts its
nodes, and meets a node behind everything that is above it.
-/

namespace TreeLint

open Relation

namespace Tree

/-- The node is the root or hangs below it. -/
def Attached (tree : Tree) (id : NodeId) : Prop :=
  ReflTransGen tree.IsParent tree.root id

variable {tree : Tree}

theorem Coherent.attached_iff (coherent : tree.Coherent) {id : NodeId}
    : tree.Attached id ↔ id ∈ tree.preorder :=
  coherent.mem_preorder_iff.symm

/-- What is at or above an attached node is attached. -/
theorem Coherent.attached_upward (coherent : tree.Coherent) {upper lower : NodeId}
    (attached : tree.Attached lower) (way : ReflTransGen tree.IsParent upper lower)
    : tree.Attached upper :=
  coherent.attached_iff.mpr (coherent.attached_of_below (coherent.attached_iff.mp attached) way)

theorem Coherent.finite_attached (coherent : tree.Coherent) : {id | tree.Attached id}.Finite :=
  tree.preorder.finite_toSet.subset fun _ => coherent.attached_iff.mp

/-- There are as many nodes of a sort as a list has that names each of them once. -/
theorem ncard_of_listed {ids : List NodeId} (distinct : ids.Nodup) {sort : NodeId → Prop}
    (listed : ∀ id, sort id ↔ id ∈ ids)
    : {id | sort id}.ncard = ids.length := by
  have same : {id | sort id} = ↑ids.toFinset := by
    ext id
    rw [Set.mem_ofPred_eq, listed, Finset.mem_coe, List.mem_toFinset]
  rw [same, Set.ncard_coe_finset, List.toFinset_card_of_nodup distinct]

/-- There are as many attached nodes as the walk from the root meets. -/
theorem Coherent.ncard_attached (coherent : tree.Coherent)
    : {id | tree.Attached id}.ncard = tree.preorder.length :=
  ncard_of_listed coherent.preorder_nodup fun _ => coherent.attached_iff

-----------------------------------------------------------------------------------------
-- The order of the walk
-----------------------------------------------------------------------------------------

/-- The nodes of a subtree come behind those that are above them, by induction on the subtree. -/
theorem Linked.nodes_ordered (linked : tree.Linked) {found : Subtree}
    (shown : tree.subtree? found.id = some found)
    : found.nodes.Pairwise fun earlier later => ¬tree.Above later.id earlier.id := by
  induction found using Subtree.induction with
  | step found ih =>
      have upward := fun child (member : child ∈ found.children) =>
        linked.parent?_of_mem_children shown member
      have below := fun child (member : child ∈ found.children) inner
          (inside : inner ∈ child.nodes) =>
        linked.below_of_mem_nodes (subtree?_of_mem_children shown member).1 inside
      have numbers : (found.children.map Subtree.id).Nodup := by
        rw [subtree?_children shown]
        exact linked.unique found.id
      rw [Subtree.nodes_eq]
      refine List.pairwise_cons.mpr ⟨?_, List.pairwise_flatMap.mpr ⟨?_, ?_⟩⟩
      · intro inner member above
        obtain ⟨child, among, inside⟩ := List.mem_flatMap.mp member
        have step : tree.IsParent found.id child.id := upward child among
        have reached := below child among inner inside
        exact linked.acyclic found.id (.head step (TransGen.trans_right reached above))
      · exact fun child member => ih child member (subtree?_of_mem_children shown member).1
      · -- What is above a node of one child and below another one is below both of them.
        refine (List.pairwise_map.mp numbers).imp_of_mem ?_
        intro first second firstAmong secondAmong distinct inner inFirst other inSecond above
        exact linked.siblings_disjoint (upward first firstAmong) (upward second secondAmong)
          distinct (below first firstAmong inner inFirst)
          ((below second secondAmong other inSecond).trans above.to_reflTransGen)

/-- The walk from the root meets a node behind those that are above it. -/
theorem Coherent.preorder_ordered (coherent : tree.Coherent)
    : tree.preorder.Pairwise fun earlier later => ¬tree.Above later earlier := by
  obtain ⟨found, shown⟩ := coherent.subtree?_exists (contains_iff.mp coherent.rootPresent)
  rw [coherent.preorder_eq shown, List.pairwise_map]
  rw [← subtree?_id shown] at shown
  exact coherent.nodes_ordered shown

end Tree

end TreeLint
