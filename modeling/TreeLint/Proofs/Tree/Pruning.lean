import TreeLint.Proofs.Tree.Attachment
import TreeLint.Proofs.Tree.Frames

/-! Edits that cut some nodes off a tree. A node that is not cut off hangs where it hung or was moved
to below a node that it was below. Main result: the nodes that are attached after the edit are those
that were attached and are not cut off.
-/

namespace TreeLint.Tree

open Relation

variable {tree after : Tree} {lost : NodeId → Prop}

/-- What becomes of a node when some nodes are cut off: it keeps its place, or moves to a place below
a node that it was below, and is then lost as the node above it is; or it is cut off.
-/
inductive Settles (tree : Tree) (lost : NodeId → Prop) (after : Tree) (id : NodeId) : Prop where
  | kept (same : after.parent? id = tree.parent? id)
      (agree : ∀ upper, tree.parent? id = some upper → (lost id ↔ lost upper))
  | moved (home : NodeId) (above : tree.Above home id) (below : after.Above home id)
      (agree : lost id ↔ lost home)
  | cutOff (apart : ¬after.Attached id) (isLost : lost id)

/-- The second tree is the first after some nodes were cut off. Nodes may have been added. -/
structure Pruned (tree : Tree) (lost : NodeId → Prop) (after : Tree) : Prop where
  root : after.root = tree.root
  grows : tree.size ≤ after.size
  rootKept : ¬lost tree.root
  settles : ∀ id < tree.size, tree.Settles lost after id

/-- Nothing is strictly above the root. -/
theorem Coherent.not_above_root (coherent : tree.Coherent) {upper : NodeId}
    : ¬tree.Above upper tree.root := by
  intro above
  obtain ⟨parent, up, _⟩ := above_iff.mp above
  exact absurd (coherent.rootTop.symm.trans up) (by simp)

/-- A node that was attached and is not cut off is attached afterwards, by induction on the way from
the root.
-/
theorem Pruned.attached_after (pruned : tree.Pruned lost after) (coherent : tree.Coherent)
    {id : NodeId} (attached : tree.Attached id) (kept : ¬lost id)
    : after.Attached id := by
  -- A node may move to below any node that was above it, so these are all taken along.
  have all {lower : NodeId} (way : tree.Attached lower) : ∀ upper,
      ReflTransGen tree.IsParent upper lower → ¬lost upper → after.Attached upper := by
    induction way with
    | refl =>
        intro upper reach _
        rcases reflTransGen_iff_eq_or_transGen.mp reach with same | above
        · rw [← same, ← pruned.root]
          exact .refl
        · exact absurd above coherent.not_above_root
    | @tail middle lower _ link ih =>
        intro upper reach kept
        rcases ReflTransGen.cases_tail reach with rfl | ⟨parent, higher, last⟩
        · cases pruned.settles lower (lt_size_of_parent? link) with
          | kept same agree =>
              have keptToo : ¬lost middle := (agree middle link).not.mp kept
              exact (ih middle .refl keptToo).tail (same.trans link)
          | moved home above below agree =>
              obtain ⟨parent, up, position⟩ := above_iff.mp above
              obtain rfl : middle = parent := Option.some.inj (link.symm.trans up)
              have reach : ReflTransGen tree.IsParent home middle :=
                reflTransGen_iff_eq_or_transGen.mpr (position.imp_left Eq.symm)
              exact (ih home reach (agree.not.mp kept)).trans below.to_reflTransGen
          | cutOff _ isLost => exact absurd isLost kept
        · cases last.symm.trans link
          exact ih upper higher kept
  exact all attached id .refl kept

/-- An old node that is attached afterwards was attached and is not cut off, by induction on the way
from the root.
-/
theorem Pruned.attached_before (pruned : tree.Pruned lost after) (coherent : tree.Coherent)
    (afterCoherent : after.Coherent) {id : NodeId} (old : id < tree.size)
    (attached : after.Attached id)
    : tree.Attached id ∧ ¬lost id := by
  have all {lower : NodeId} (way : after.Attached lower) : ∀ upper < tree.size,
      ReflTransGen after.IsParent upper lower → tree.Attached upper ∧ ¬lost upper := by
    induction way with
    | refl =>
        intro upper _ reach
        rcases reflTransGen_iff_eq_or_transGen.mp reach with same | above
        · rw [← same, pruned.root]
          exact ⟨.refl, pruned.rootKept⟩
        · exact absurd above afterCoherent.not_above_root
    | @tail middle lower way link ih =>
        intro upper old reach
        rcases ReflTransGen.cases_tail reach with rfl | ⟨parent, higher, last⟩
        · cases pruned.settles lower old with
          | kept same agree =>
              have up : tree.parent? lower = some middle := same.symm.trans link
              obtain ⟨attached, kept⟩ := ih middle (coherent.parent_lt up) .refl
              exact ⟨attached.tail up, (agree middle up).not.mpr kept⟩
          | moved home above below agree =>
              obtain ⟨parent, up, position⟩ := above_iff.mp below
              obtain rfl : middle = parent := Option.some.inj (link.symm.trans up)
              have reach : ReflTransGen after.IsParent home middle :=
                reflTransGen_iff_eq_or_transGen.mpr (position.imp_left Eq.symm)
              obtain ⟨attached, kept⟩ := ih home (coherent.above_lt above).1 reach
              exact ⟨attached.trans above.to_reflTransGen, agree.not.mpr kept⟩
          | cutOff apart _ => exact absurd (way.tail link) apart
        · cases last.symm.trans link
          exact ih upper old higher
  exact all attached id old .refl

/-- The old nodes that are attached afterwards are those that were and are not cut off. -/
theorem Pruned.attached_iff (pruned : tree.Pruned lost after) (coherent : tree.Coherent)
    (afterCoherent : after.Coherent) {id : NodeId} (old : id < tree.size)
    : after.Attached id ↔ tree.Attached id ∧ ¬lost id :=
  ⟨pruned.attached_before coherent afterCoherent old,
    fun ⟨attached, kept⟩ => pruned.attached_after coherent attached kept⟩

/-- If all the new nodes are attached, then the nodes attached afterwards are these and the ones that
were attached before and are not cut off.
-/
theorem Pruned.attached_iff_or_new (pruned : tree.Pruned lost after) (coherent : tree.Coherent)
    (afterCoherent : after.Coherent)
    (new : ∀ id, tree.size ≤ id → id < after.size → after.Attached id) (id : NodeId)
    : after.Attached id
      ↔ (tree.Attached id ∧ ¬lost id) ∨ (tree.size ≤ id ∧ id < after.size) := by
  constructor
  · intro attached
    by_cases old : id < tree.size
    · exact .inl (pruned.attached_before coherent afterCoherent old attached)
    · exact .inr ⟨Nat.le_of_not_lt old,
        afterCoherent.lt_size_of_mem_preorder (afterCoherent.attached_iff.mp attached)⟩
  · rintro (⟨attached, kept⟩ | ⟨least, inside⟩)
    · exact pruned.attached_after coherent attached kept
    · exact new id least inside

-----------------------------------------------------------------------------------------
-- Ways to a node and to its parent
-----------------------------------------------------------------------------------------

/-- What is above a node is its parent or above its parent. -/
theorem above_iff_of_parent {id upper top : NodeId} (up : tree.parent? id = some upper)
    : tree.Above top id ↔ top = upper ∨ tree.Above top upper := by
  rw [above_iff]
  exact ⟨fun ⟨_, link, above⟩ => Option.some.inj (link.symm.trans up) ▸ above,
    fun above => ⟨upper, up, above⟩⟩

/-- Another node is above a node or the node itself exactly if it is so for the parent. -/
theorem reach_iff_of_parent {id upper top : NodeId} (up : tree.parent? id = some upper)
    (other : top ≠ id)
    : ReflTransGen tree.IsParent top id ↔ ReflTransGen tree.IsParent top upper := by
  rw [reflTransGen_iff_eq_or_transGen, reflTransGen_iff_eq_or_transGen]
  rw [or_iff_right other.symm, ← Above, above_iff_of_parent up, eq_comm]

/-- A node other than the root is attached to its parent, which is then attached too. -/
theorem Attached.exists_parent {id : NodeId} (attached : tree.Attached id)
    (other : id ≠ tree.root)
    : ∃ parent, tree.parent? id = some parent ∧ tree.Attached parent := by
  rcases ReflTransGen.cases_tail attached with same | ⟨parent, way, link⟩
  · exact absurd same other
  · exact ⟨parent, link, way⟩

/-- A node other than the root is not attached if nothing is above it. -/
theorem not_attached_of_top {id : NodeId} (top : tree.parent? id = none) (other : id ≠ tree.root)
    : ¬tree.Attached id := by
  intro attached
  obtain ⟨parent, link, _⟩ := attached.exists_parent other
  exact absurd (top.symm.trans link) (by simp)

-----------------------------------------------------------------------------------------
-- Edits that cut nodes off
-----------------------------------------------------------------------------------------

/-- Where the nodes that move stay below a node that is above them, none is cut off. -/
theorem Frame.pruned {moved : List NodeId} (frame : tree.Frame moved after)
    (homes : ∀ id ∈ moved, ∃ home, tree.Above home id ∧ after.Above home id)
    : tree.Pruned (fun _ => False) after where
  root := frame.root
  grows := frame.grows
  rootKept := id
  settles id old := by
    by_cases moves : id ∈ moved
    · obtain ⟨home, above, below⟩ := homes id moves
      exact .moved home above below .rfl
    · exact .kept (frame.parents id old moves) fun _ _ => .rfl

/-- Text in the place of a node cuts off what is below the node. -/
theorem Coherent.fragment_pruned (coherent : tree.Coherent) (anchor : NodeId) (text : String)
    : tree.Pruned (tree.Above anchor) (tree.fragment anchor text) where
  root := fragment_root tree anchor text
  grows := Nat.le_of_eq (fragment_size tree anchor text).symm
  rootKept := coherent.not_above_root
  settles id _ := by
    by_cases member : id ∈ tree.childIds anchor
    · have up := coherent.agree.mp member
      refine .cutOff (not_attached_of_top ?_ ?_) (.single up)
      · rw [fragment_parent?, if_pos member]
      · rw [fragment_root]
        exact coherent.ne_root up
    · refine .kept (by rw [fragment_parent?, if_neg member]) fun upper up => ?_
      rw [above_iff_of_parent up, or_iff_right]
      rintro rfl
      exact member (coherent.agree.mpr up)

end TreeLint.Tree
