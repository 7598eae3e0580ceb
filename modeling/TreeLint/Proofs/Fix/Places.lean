import TreeLint.Proofs.Fix.Tidying
import TreeLint.Proofs.Tree.Code

/-! Where nodes stand while a tree is fixed. A node that was there before hangs where it hung, hangs
nowhere, or was moved. If what was moved was part of the tree and of the code of a member before,
then so was every old node that is now.
-/

namespace TreeLint

open Relation

namespace Tree

/-- Old nodes hang where they hung, or nowhere, unless they were moved. -/
structure PlacesKept (tree : Tree) (moved : NodeId → Prop) (after : Tree) : Prop where
  root : after.root = tree.root
  links
    : ∀ lower < tree.size, ∀ upper,
        after.parent? lower = some upper → tree.parent? lower = some upper ∨ moved lower

variable {tree after : Tree} {moved : NodeId → Prop}

/-- An old node that is attached was attached before, by induction on the way from the root. -/
theorem PlacesKept.attached_before (kept : tree.PlacesKept moved after)
    (coherent : tree.Coherent) (afterCoherent : after.Coherent)
    (attached : ∀ id, moved id → id ∈ tree.preorder) {id : NodeId} (old : id < tree.size)
    (now : id ∈ after.preorder)
    : id ∈ tree.preorder := by
  have way := afterCoherent.mem_preorder_iff.mp now
  rw [kept.root] at way
  clear now
  induction way with
  | refl => exact coherent.mem_preorder_iff.mpr .refl
  | @tail upper lower _ link ih =>
      rcases kept.links lower old upper link with up | isMoved
      · have above := ih (coherent.parent_lt up)
        exact coherent.mem_preorder_iff.mpr ((coherent.mem_preorder_iff.mp above).tail up)
      · exact attached lower isMoved

/-- An old node in a member was in one before, if no node became a member and no class ceased to be
one. By induction on the way from the member.
-/
theorem PlacesKept.inMember_before (kept : tree.PlacesKept moved after) (linked : tree.Linked)
    (members : ∀ id, after.isMemberAt id → tree.isMemberAt id)
    (classes : ∀ id, tree.isClassAt id → after.isClassAt id)
    (inside : ∀ id, moved id → tree.InMember id) {id : NodeId} (old : id < tree.size)
    (now : after.InMember id)
    : tree.InMember id := by
  obtain ⟨top, isMember, way⟩ := now
  induction way with
  | refl => exact ⟨top, members top isMember, .refl⟩
  | @tail upper lower _ step ih =>
      rcases kept.links lower old upper step.1 with up | isMoved
      · obtain ⟨member, isMember, above⟩ := ih (linked.parent_lt up)
        refine ⟨member, isMember, above.tail ⟨up, ?_⟩⟩
        exact Bool.eq_false_iff.mpr fun isClass =>
          absurd (step.2.symm.trans (classes upper isClass)) (by simp)
      · exact inside lower isMoved

/-- Where nothing was moved, a way through code is one from before. -/
theorem PlacesKept.way_before (kept : tree.PlacesKept (fun _ => False) after)
    (linked : tree.Linked) (classes : ∀ id, tree.isClassAt id → after.isClassAt id)
    {upper lower : NodeId} (old : lower < tree.size)
    (way : ReflTransGen after.CodeParent upper lower)
    : ReflTransGen tree.CodeParent upper lower := by
  induction way with
  | refl => exact .refl
  | @tail middle lower _ step ih =>
      have up := (kept.links lower old middle step.1).resolve_right id
      refine (ih (linked.parent_lt up)).tail ⟨up, ?_⟩
      exact Bool.eq_false_iff.mpr fun isClass =>
        absurd (step.2.symm.trans (classes middle isClass)) (by simp)

-----------------------------------------------------------------------------------------
-- Members and classes
-----------------------------------------------------------------------------------------

namespace Tidied

variable {spared : NodeId → Prop}

/-- No node becomes a member of a class. -/
theorem isMemberAt_before (tidied : tree.Tidied spared after) (id : NodeId)
    (isMember : after.isMemberAt id)
    : tree.isMemberAt id := by
  obtain ⟨kind, isKind, among⟩ := (Option.any_eq_true _ _).mp isMember
  refine (Option.any_eq_true _ _).mpr ⟨kind, tidied.kind?_before (fun added => ?_) isKind, among⟩
  revert among added
  cases kind <;> decide

/-- No class ceases to be one. -/
theorem isClassAt_kept (tidied : tree.Tidied spared after) (id : NodeId)
    (isClass : tree.isClassAt id)
    : after.isClassAt id := by
  obtain ⟨kind, isKind, among⟩ := (Option.any_eq_true _ _).mp isClass
  exact (Option.any_eq_true _ _).mpr ⟨kind, tidied.kind?_kept isKind, among⟩

end Tidied

/-- Edits that move some nodes keep the places of the others. -/
theorem Frame.placesKept {moved : List NodeId} (frame : tree.Frame moved after)
    : tree.PlacesKept (· ∈ moved) after where
  root := frame.root
  links lower old upper up := by
    by_cases among : lower ∈ moved
    · exact Or.inr among
    · exact Or.inl ((frame.parents lower old among).symm.trans up)

end Tree

end TreeLint
