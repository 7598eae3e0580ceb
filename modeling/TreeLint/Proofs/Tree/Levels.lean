import TreeLint.Proofs.Document.Nesting
import TreeLint.Proofs.Tree.Attachment
import TreeLint.Proofs.Tree.Contents
import TreeLint.Proofs.Tree.Documents

/-! How deep the nodes of a tree are. Main results: the document of a tree opens as many containers as
its neediest attached node, and links that lead no deeper than others lead to levels that are no
deeper.
-/

namespace TreeLint

theorem Subtree.outlineAll_eq_map (nodes : List Subtree)
    : outlineAll nodes = nodes.map outline := by
  induction nodes with
  | nil => rfl
  | cons node rest ih => rw [outlineAll, ih, List.map_cons]

namespace Tree

open Relation

variable {tree after : Tree}

/-- The number of nodes above a node. -/
def level (tree : Tree) (id : NodeId) : Nat :=
  (tree.ancestors id).length

theorem Linked.level_of_parent (linked : tree.Linked) {id parent : NodeId}
    (up : tree.parent? id = some parent)
    : tree.level id = tree.level parent + 1 := by
  rw [level, linked.ancestors_eq, up, List.length_cons, level]

theorem Linked.level_of_top (linked : tree.Linked) {id : NodeId} (top : tree.parent? id = none)
    : tree.level id = 0 := by
  rw [level, linked.ancestors_eq, top, List.length_nil]

/-- What is above a node is on a higher level, by induction on the way. -/
theorem Linked.level_lt_of_above (linked : tree.Linked) {upper lower : NodeId}
    (above : tree.Above upper lower)
    : tree.level upper < tree.level lower := by
  induction above with
  | single link => exact Nat.lt_of_lt_of_eq (Nat.lt_succ_self _) (linked.level_of_parent link).symm
  | tail _ link ih =>
      exact Nat.lt_trans ih
        (Nat.lt_of_lt_of_eq (Nat.lt_succ_self _) (linked.level_of_parent link).symm)

-----------------------------------------------------------------------------------------
-- The containers of a document
-----------------------------------------------------------------------------------------

/-- The containers that are open in the document where a node says the most, but for that of the
document: two for each node above it, and its own.
-/
def need (tree : Tree) (id : NodeId) : Nat :=
  2 * tree.level id + (tree.content? id).elim 0 Content.nesting

theorem need_of_content? {id : NodeId} {content : Content}
    (known : tree.content? id = some content)
    : tree.need id = 2 * tree.level id + content.nesting := by
  rw [need, known]
  rfl

/-- A subtree fits exactly if each of its nodes does, by induction on the subtree. -/
theorem Linked.depth_outline_le_iff (linked : tree.Linked) {found : Subtree}
    (shown : tree.subtree? found.id = some found) {room : Nat}
    : 2 * tree.level found.id + found.outline.toJson.depth ≤ room
      ↔ ∀ inner ∈ found.nodes, tree.need inner.id ≤ room := by
  induction found using Subtree.induction with
  | step found ih =>
      have each : ∀ child ∈ found.children,
          (2 * tree.level found.id + 2 + child.outline.toJson.depth ≤ room
            ↔ ∀ inner ∈ child.nodes, tree.need inner.id ≤ room) := by
        intro child member
        have deeper := linked.level_of_parent (linked.parent?_of_mem_children shown member)
        have below := ih child member (subtree?_of_mem_children shown member).1
        rwa [deeper] at below
      have here := need_of_content? (content?_of_shown shown)
      have outline : found.outline = .mk found.content (found.children.map Subtree.outline) := by
        cases found
        exact congrArg _ (Subtree.outlineAll_eq_map _)
      rw [outline, Outline.depth_mk_le_iff, Subtree.nodes_eq, List.forall_mem_cons, here,
        List.forall_mem_map]
      refine and_congr_right fun _ => ?_
      simp only [List.mem_flatMap]
      constructor
      · rintro below inner ⟨child, member, inside⟩
        exact (each child member).mp (below child member) inner inside
      · intro below child member
        exact (each child member).mpr fun inner inside => below inner ⟨child, member, inside⟩

/-- The document of a tree is as deep as the neediest of the attached nodes says. -/
theorem Coherent.depth_toDocument_le_iff (coherent : tree.Coherent) {room : Nat}
    : tree.toDocument.toJson.depth ≤ room + 1 ↔ ∀ id, tree.Attached id → tree.need id ≤ room := by
  obtain ⟨found, shown⟩ := coherent.subtree?_exists (contains_iff.mp coherent.rootPresent)
  have number := subtree?_id shown
  have outline : tree.toDocument.root = found.outline := by
    rw [toDocument, Tree.outline, shown]
    rfl
  have top : tree.level found.id = 0 := by
    rw [number]
    exact coherent.level_of_top coherent.rootTop
  have fits : 2 * tree.level found.id + found.outline.toJson.depth ≤ room
      ↔ ∀ inner ∈ found.nodes, tree.need inner.id ≤ room :=
    coherent.depth_outline_le_iff (number.symm ▸ shown)
  rw [top, Nat.mul_zero, Nat.zero_add] at fits
  rw [Document.depth_le_iff, outline, fits]
  constructor
  · intro all id attached
    rw [coherent.attached_iff, coherent.preorder_eq shown] at attached
    obtain ⟨inner, inside, rfl⟩ := List.mem_map.mp attached
    exact all inner inside
  · intro all inner inside
    refine all inner.id (coherent.attached_iff.mpr ?_)
    rw [coherent.preorder_eq shown]
    exact List.mem_map_of_mem inside

-----------------------------------------------------------------------------------------
-- Nodes that move
-----------------------------------------------------------------------------------------

/-- A node that has its parent still, or hangs no further below a node than it did before, comes to no
deeper level, by induction on the level.
-/
theorem Coherent.level_le_of_links (coherent : tree.Coherent) (afterCoherent : after.Coherent)
    (links
      : ∀ id < tree.size,
          after.parent? id = tree.parent? id
          ∨ ¬after.Attached id
          ∨ ∃ home < tree.size,
              after.Above home id
              ∧ after.level id + tree.level home ≤ tree.level id + after.level home)
    {id : NodeId} (old : id < tree.size) (attached : after.Attached id)
    : after.level id ≤ tree.level id := by
  induction least : after.level id using Nat.strong_induction_on generalizing id with
  | _ bound ih =>
      subst least
      rcases links id old with same | apart | ⟨home, homeOld, above, nearer⟩
      · cases up : tree.parent? id with
        | none =>
            rw [afterCoherent.level_of_top (same.trans up)]
            exact Nat.zero_le _
        | some parent =>
            have now := same.trans up
            have deeper := afterCoherent.level_of_parent now
            have upper := afterCoherent.attached_upward attached (.single now)
            have least := ih (after.level parent) (deeper ▸ Nat.lt_succ_self _)
              (coherent.parent_lt up) upper rfl
            rw [deeper, coherent.level_of_parent up]
            exact Nat.add_le_add_right least 1
      · exact absurd attached apart
      · have higher := afterCoherent.level_lt_of_above above
        have upper := afterCoherent.attached_upward attached above.to_reflTransGen
        have least := ih (after.level home) higher homeOld upper rfl
        omega

end Tree

end TreeLint
