import TreeLint.Fix.Apply
import TreeLint.Proofs.Tree.EditHistory
import TreeLint.Proofs.Tree.Frames

/-! The loops of the fixes that move nodes. Each of them takes siblings one after the other, and no
step stands in the way of a later one: what is moved is distinct, and what it is moved to stays
where it is.
-/

namespace TreeLint

open Relation

-----------------------------------------------------------------------------------------
-- Siblings
-----------------------------------------------------------------------------------------

namespace Tree

/-- Distinct nodes that hang below the same one. -/
structure Siblings (tree : Tree) (parent : NodeId) (ids : List NodeId) : Prop where
  distinct : ids.Nodup
  below : ∀ id ∈ ids, tree.parent? id = some parent

/-- Some children of the subtree of a node, in order, are siblings. -/
theorem Linked.siblings {tree : Tree} (linked : tree.Linked) {id : NodeId} {found : Subtree}
    {part : List Subtree} (shown : tree.subtree? id = some found)
    (among : part.Sublist found.children)
    : tree.Siblings id (part.map Subtree.id) := by
  constructor
  · have all : (found.children.map Subtree.id).Nodup := by
      rw [subtree?_children shown]
      exact linked.unique id
    exact all.sublist (among.map Subtree.id)
  · intro child member
    obtain ⟨inner, inside, rfl⟩ := List.mem_map.mp member
    exact linked.parent?_of_mem_children shown (among.subset inside)

/-- Siblings other than the first are siblings after that one has moved. -/
theorem Siblings.rest {tree other : Tree} {parent first : NodeId} {ids : List NodeId}
    (siblings : tree.Siblings parent (first :: ids)) (frame : tree.Frame [first] other)
    : other.Siblings parent ids := by
  obtain ⟨fresh, distinct⟩ := List.nodup_cons.mp siblings.distinct
  refine ⟨distinct, fun id member => ?_⟩
  have up := siblings.below id (List.mem_cons_of_mem first member)
  rw [frame.parents id (lt_size_of_parent? up), up]
  simp only [List.mem_singleton]
  exact fun same => fresh (same ▸ member)

/-- Siblings stay siblings when none of them moves. -/
theorem Siblings.still {tree other : Tree} {parent : NodeId} {ids : List NodeId}
    (siblings : tree.Siblings parent ids) (frame : tree.Frame [] other)
    : other.Siblings parent ids :=
  ⟨siblings.distinct, fun id member => by
    have up := siblings.below id member
    rw [frame.parents id (lt_size_of_parent? up) (List.not_mem_nil), up]⟩

theorem Siblings.parent_not_mem {tree : Tree} (linked : tree.Linked) {parent : NodeId}
    {ids : List NodeId} (siblings : tree.Siblings parent ids)
    : parent ∉ ids := by
  intro member
  have loop : tree.IsParent parent parent := siblings.below parent member
  exact linked.acyclic parent (TransGen.single loop)

end Tree

theorem Outline.size_pos (outline : Outline) : 0 < outline.size := by
  cases outline
  rw [Outline.size]
  exact Nat.succ_pos _

/-- The topmost of the nodes that are added is inside the arena then. -/
theorem Tree.size_lt_grow (tree : Tree) (outline : Outline)
    : tree.size < (tree.grow outline).size := by
  have positive := outline.size_pos
  rw [grow_size]
  omega

-----------------------------------------------------------------------------------------
-- Loops
-----------------------------------------------------------------------------------------

namespace Fix

/-- Siblings can be cut off one after the other, by induction on the list. -/
theorem detachAll_succeeds {tree : Tree} {parent : NodeId} {ids : List NodeId}
    (writable : tree.writable) (siblings : tree.Siblings parent ids)
    : (detachAll ids).Succeeds tree := by
  induction ids generalizing tree with
  | nil => exact ⟨(), tree, rfl⟩
  | cons id rest ih =>
      have first := Edit.detach_ok writable (siblings.below id (List.mem_cons_self))
      exact .bind first (ih writable (siblings.rest (tree.cut_frame parent id)))

/-- Siblings can be moved below a node without a parent one after the other, and nothing else is
moved, by induction on the list.
-/
theorem moveInto_ok {tree : Tree} {target parent : NodeId} {ids : List NodeId}
    (coherent : tree.Coherent) (writable : tree.writable) (present : target < tree.size)
    (top : tree.parent? target = none) (siblings : tree.Siblings parent ids)
    : ∃ after,
        (moveInto target ids).apply tree = (.ok (), after)
        ∧ after.Coherent
        ∧ tree.Frame ids after := by
  induction ids generalizing tree with
  | nil => exact ⟨tree, rfl, coherent, .refl tree []⟩
  | cons id rest ih =>
      have up := siblings.below id List.mem_cons_self
      have other : target ≠ id := by
        rintro rfl
        exact absurd (top.symm.trans up) (by simp)
      -- Neither the target nor the node has a parent when they are linked, so no cycle can arise.
      let cut := tree.cut parent id
      let place := (cut.childIds target).length
      have cutCoherent : cut.Coherent := coherent.cut up
      have hangable : cut.Hangable target id := by
        refine .of_tops ?_ ?_ ?_ ?_ (coherent.ne_root up) other
        · rwa [Tree.cut_size]
        · rw [Tree.cut_size]
          exact Tree.lt_size_of_parent? up
        · rw [Tree.cut_parent?, if_neg other, top]
        · rw [Tree.cut_parent?, if_pos rfl]
      have frame : tree.Frame [id] (cut.hang target place id) :=
        (tree.cut_frame parent id).trans (Tree.hang_frame hangable place)
          (fun _ member => member) (fun _ _ member => member)
      have stays : (cut.hang target place id).parent? target = none := by
        rw [frame.parents target present (by simpa using other), top]
      obtain ⟨after, moved, afterCoherent, restFrame⟩ :=
        ih (cutCoherent.hang hangable place) writable (Nat.lt_of_lt_of_le present frame.grows)
          stays (siblings.rest frame)
      refine ⟨after, ?_, afterCoherent, ?_⟩
      · rw [moveInto, Edit.apply_bind_ok (Edit.detach_ok writable up), Edit.apply_bind,
          Edit.appendChild_apply, Edit.insertChild_ok cutCoherent.toLinked writable hangable]
        exact moved
      · exact frame.trans restFrame (by simp) (fun _ _ member => List.mem_cons_of_mem id member)

/-- A variable can be given a declaration in a block that is above it, and nothing else is moved.
The rest of an edit follows on a coherent tree then.
-/
theorem declareOne_succeeds {tree : Tree} {statement block id : NodeId} {rest : Edit α}
    (coherent : tree.Coherent) (writable : tree.writable)
    (inBlock : tree.parent? statement = some block) (up : tree.parent? id = some statement)
    (index : Nat)
    (follows :
      ∀ after : Tree, after.Coherent → tree.Frame [id] after → rest.Succeeds after)
    : Edit.Succeeds
        (do
          Edit.detach id
          let declaration ← Edit.addOutline (Outline.ofKind .declarationStatement)
          Edit.insertChild declaration 0 id
          Edit.insertChild block index declaration
          rest)
        tree := by
  have old := Tree.lt_size_of_parent? up
  let cut := tree.cut statement id
  let outline := Outline.ofKind .declarationStatement
  have cutCoherent : cut.Coherent := coherent.cut up
  have cutSize : cut.size = tree.size := tree.cut_size statement id
  have cutWritable : cut.writable := writable
  have grownCoherent := cutCoherent.grow outline
  have grownTop := cut.grow_parent?_size outline
  have apart : cut.size ≠ id := by
    rw [cutSize]
    exact Nat.ne_of_gt old
  have inner : (cut.grow outline).Hangable cut.size id := by
    refine .of_tops (cut.size_lt_grow outline) ?_ grownTop ?_ (coherent.ne_root up) apart
    · exact Nat.lt_of_lt_of_le (cutSize ▸ old) (cut.grow_frame outline).grows
    · rw [Tree.grow_parent?_of_lt (cutSize ▸ old), Tree.cut_parent?, if_pos rfl]
  let filled := (cut.grow outline).hang cut.size 0 id
  have filledCoherent : filled.Coherent := grownCoherent.hang inner 0
  have frame : tree.Frame [id] filled :=
    ((tree.cut_frame statement id).trans (cut.grow_frame outline)
        (fun _ member => member) (by simp)).trans
      (Tree.hang_frame inner 0) (fun _ member => member) (fun _ _ member => member)
  have filledWritable : filled.writable := frame.writable.trans writable
  -- The block is above the statement and so above all that moved: the new node is not above it.
  have outer : filled.Hangable block cut.size := by
    refine frame.hangable_new coherent (coherent.parent_lt inBlock) ?_
      (Nat.le_of_eq cutSize.symm) ?_ ?_
    · intro moved member
      rw [List.mem_singleton.mp member]
      exact Tree.above_iff.mpr ⟨statement, up, Or.inr (TransGen.single inBlock)⟩
    · rw [Tree.hang_size]
      exact cut.size_lt_grow outline
    · rw [Tree.hang_parent? inner.childPresent, if_neg apart, grownTop]
  have lastFrame : tree.Frame [id] (filled.hang block index cut.size) := by
    refine frame.trans (Tree.hang_frame outer index) (fun _ member => member) ?_
    intro later before member
    rw [List.mem_singleton.mp member, cutSize] at before
    exact absurd before (Nat.lt_irrefl _)
  refine .bind (Edit.detach_ok writable up) ?_
  refine .bind (Edit.addOutline_ok cutWritable outline) ?_
  refine .bind (Edit.insertChild_ok grownCoherent.toLinked cutWritable inner 0) ?_
  refine .bind (Edit.insertChild_ok filledCoherent.toLinked filledWritable outer index) ?_
  exact follows _ (filledCoherent.hang outer index) lastFrame

/-- Variables of one declaration can be given declarations in the block of it one after the other,
by induction on the list.
-/
theorem declareApart_succeeds {tree : Tree} {statement block : NodeId} {ids : List NodeId}
    (coherent : tree.Coherent) (writable : tree.writable)
    (inBlock : tree.parent? statement = some block) (siblings : tree.Siblings statement ids)
    (index : Nat)
    : (declareApart block index ids).Succeeds tree := by
  induction ids generalizing tree index with
  | nil => exact ⟨(), tree, rfl⟩
  | cons id rest ih =>
      refine declareOne_succeeds coherent writable inBlock
        (siblings.below id List.mem_cons_self) index fun after afterCoherent frame => ?_
      have stays : after.parent? statement = some block := by
        rw [frame.parents statement (Tree.lt_size_of_parent? inBlock), inBlock]
        intro member
        exact siblings.parent_not_mem coherent.toLinked
          (List.mem_cons.mpr (Or.inl (List.mem_singleton.mp member)))
      exact ih afterCoherent (frame.writable.trans writable) stays (siblings.rest frame) (index + 1)

end Fix
end TreeLint
