import TreeLint.Proofs.Tree.EditSteps

/-! Every edit leaves a coherent tree coherent, whether it succeeds or fails. Cutting links cannot
close a circle; making one cannot either, since the lower node has no parent yet and is not above
the upper one.
-/

namespace TreeLint

open Relation

namespace Tree

-----------------------------------------------------------------------------------------
-- Fewer links
-----------------------------------------------------------------------------------------

/-- A tree all of whose parent links are links of an acyclic tree is acyclic. -/
theorem Linked.acyclic_of_fewer {tree other : Tree} (linked : tree.Linked)
    (fewer : ∀ {id parent}, other.parent? id = some parent → tree.parent? id = some parent)
    (id : NodeId)
    : ¬other.Above id id := by
  have links : other.IsParent ≤ tree.IsParent := fun _ _ up => fewer up
  exact fun cycle => linked.acyclic id (TransGen.mono links id id cycle)

/-- Cutting a node off its parent leaves the links in order. -/
theorem Linked.cut {tree : Tree} (linked : tree.Linked) {parent child : NodeId}
    (up : tree.parent? child = some parent)
    : (tree.cut parent child).Linked := by
  refine ⟨?_, ?_, ?_⟩
  · intro upper lower
    rw [cut_childIds, cut_parent?]
    by_cases here : upper = parent <;> by_cases moved : lower = child
    · simp [here, moved]
    · simp [here, moved, linked.agree]
    · simp [here, moved, linked.agree, up, Ne.symm here]
    · simp [here, moved, linked.agree]
  · intro id
    rw [cut_childIds]
    split
    · exact (linked.unique id).filter _
    · exact linked.unique id
  · refine linked.acyclic_of_fewer fun {id upper} link => ?_
    rw [cut_parent?] at link
    split at link
    · exact absurd link (by simp)
    · exact link

/-- Putting text in the place of a node leaves the links in order. -/
theorem Linked.fragment {tree : Tree} (linked : tree.Linked) (id : NodeId) (text : String)
    : (tree.fragment id text).Linked := by
  refine ⟨?_, ?_, ?_⟩
  · intro upper lower
    rw [fragment_childIds, fragment_parent?]
    by_cases here : upper = id <;> by_cases left : lower ∈ tree.childIds id
    · simp [here, left]
    · simp [here, left, ← linked.agree]
    · have up := linked.agree.mp left
      simp [here, left, linked.agree, up, Ne.symm here]
    · simp [here, left, linked.agree]
  · intro other
    rw [fragment_childIds]
    split
    · exact List.nodup_nil
    · exact linked.unique other
  · refine linked.acyclic_of_fewer fun {other upper} link => ?_
    rw [fragment_parent?] at link
    split at link
    · exact absurd link (by simp)
    · exact link

-----------------------------------------------------------------------------------------
-- One more link
-----------------------------------------------------------------------------------------

/-- The second node may be hung below the first: both are there, the lower one has no parent, is
not the root, and is neither the upper one nor above it.
-/
structure Hangable (tree : Tree) (parent child : NodeId) : Prop where
  parentPresent : parent < tree.size
  childPresent : child < tree.size
  top : tree.parent? child = none
  notRoot : child ≠ tree.root
  free : ¬ReflTransGen tree.IsParent child parent

/-- A chain of parents in a tree with a node newly hung is a chain from before, or it comes down
to the new parent and goes on from the node.
-/
theorem Above.of_hang {tree : Tree} {parent child upper lower : NodeId} {index : Nat}
    (hangable : tree.Hangable parent child)
    (above : (tree.hang parent index child).Above upper lower)
    : tree.Above upper lower
      ∨ ReflTransGen tree.IsParent upper parent ∧ ReflTransGen tree.IsParent child lower := by
  have link {upper lower : NodeId} (up : (tree.hang parent index child).IsParent upper lower)
      : tree.IsParent upper lower ∨ upper = parent ∧ lower = child := by
    rw [IsParent, hang_parent? hangable.childPresent] at up
    split at up
    · next same => exact Or.inr ⟨(Option.some.inj up).symm, same⟩
    · exact Or.inl up
  induction above with
  | single up =>
      rcases link up with old | ⟨rfl, rfl⟩
      · exact Or.inl (TransGen.single old)
      · exact Or.inr ⟨.refl, .refl⟩
  | tail _ up ih =>
      rcases link up with old | ⟨rfl, rfl⟩
      · rcases ih with strict | ⟨left, right⟩
        · exact Or.inl (strict.tail old)
        · exact Or.inr ⟨left, right.tail old⟩
      · rcases ih with strict | ⟨_, back⟩
        · exact Or.inr ⟨strict.to_reflTransGen, .refl⟩
        · exact absurd back hangable.free

/-- Hanging a node without a parent below one that is not below it leaves the links in order. -/
theorem Linked.hang {tree : Tree} (linked : tree.Linked) {parent child : NodeId}
    (hangable : tree.Hangable parent child) (index : Nat)
    : (tree.hang parent index child).Linked := by
  have unlisted (id : NodeId) : child ∉ tree.childIds id := by
    simp [linked.agree, hangable.top]
  have members (ids : List NodeId)
      : (ids.insertIdx (min index ids.length) child).Perm (child :: ids) :=
    List.perm_insertIdx child ids (Nat.min_le_right _ _)
  refine ⟨?_, ?_, ?_⟩
  · intro upper lower
    rw [hang_childIds hangable.parentPresent, hang_parent? hangable.childPresent]
    by_cases here : upper = parent
    · rw [if_pos here, (members _).mem_iff, List.mem_cons, linked.agree]
      by_cases moved : lower = child
      · simp [here, moved]
      · simp [moved]
    · rw [if_neg here]
      by_cases moved : lower = child
      · simp [moved, unlisted, Ne.symm here]
      · simp [moved, linked.agree]
  · intro id
    rw [hang_childIds hangable.parentPresent]
    split
    · exact (members _).nodup_iff.mpr (List.nodup_cons.mpr ⟨unlisted id, linked.unique id⟩)
    · exact linked.unique id
  · intro id cycle
    rcases cycle.of_hang hangable with old | ⟨down, back⟩
    · exact linked.acyclic id old
    · exact hangable.free (back.trans down)

-----------------------------------------------------------------------------------------
-- Coherent trees
-----------------------------------------------------------------------------------------

/-- Cutting a node off its parent leaves a tree coherent. -/
theorem Coherent.cut {tree : Tree} (coherent : tree.Coherent) {parent child : NodeId}
    (up : tree.parent? child = some parent)
    : (tree.cut parent child).Coherent where
  toLinked := coherent.toLinked.cut up
  rootPresent := by
    rw [contains_iff, cut_root, cut_size]
    exact contains_iff.mp coherent.rootPresent
  rootTop := by
    rw [cut_root, cut_parent?, coherent.rootTop, ite_self]

/-- Putting text in the place of a node leaves a tree coherent. -/
theorem Coherent.fragment {tree : Tree} (coherent : tree.Coherent) (id : NodeId) (text : String)
    : (tree.fragment id text).Coherent where
  toLinked := coherent.toLinked.fragment id text
  rootPresent := by
    rw [contains_iff, fragment_root, fragment_size]
    exact contains_iff.mp coherent.rootPresent
  rootTop := by
    rw [fragment_root, fragment_parent?, coherent.rootTop, ite_self]

theorem Coherent.hang {tree : Tree} (coherent : tree.Coherent) {parent child : NodeId}
    (hangable : tree.Hangable parent child) (index : Nat)
    : (tree.hang parent index child).Coherent where
  toLinked := coherent.toLinked.hang hangable index
  rootPresent := by
    rw [contains_iff, hang_root, hang_size]
    exact contains_iff.mp coherent.rootPresent
  rootTop := by
    rw [hang_root, hang_parent? hangable.childPresent, if_neg hangable.notRoot.symm,
      coherent.rootTop]

/-- What nodes say about themselves has no part in coherence. -/
theorem Coherent.reword {tree : Tree} (coherent : tree.Coherent) (id : NodeId)
    (f : Content → Content)
    : (tree.reword id f).Coherent where
  toLinked := coherent.toLinked.congr (reword_parent? tree id f) (reword_childIds tree id f)
  rootPresent := by
    rw [contains_iff, reword_root, reword_size]
    exact contains_iff.mp coherent.rootPresent
  rootTop := by
    rw [reword_root, reword_parent?, coherent.rootTop]

/-- Neither has the permission to change the tree. -/
theorem Coherent.setWritable {tree : Tree} (coherent : tree.Coherent) (writable : Bool)
    : { tree with writable }.Coherent where
  toLinked := coherent.toLinked.congr (fun _ => rfl) (fun _ => rfl)
  rootPresent := coherent.rootPresent
  rootTop := coherent.rootTop

end Tree

-----------------------------------------------------------------------------------------
-- Edits of coherent trees
-----------------------------------------------------------------------------------------

namespace Edit

/-- An edit that leaves every coherent tree coherent, whether it succeeds or fails. -/
def KeepsCoherent (edit : Edit α) : Prop :=
  ∀ tree : Tree, tree.Coherent → (edit.apply tree).2.Coherent

theorem KeepsCoherent.pure (value : α) : KeepsCoherent (Pure.pure value : Edit α) :=
  fun _ coherent => coherent

theorem KeepsCoherent.throw (error : FixError)
    : KeepsCoherent (MonadExcept.throw error : Edit α) :=
  fun _ coherent => coherent

theorem KeepsCoherent.current : KeepsCoherent Edit.current :=
  fun _ coherent => coherent

theorem KeepsCoherent.bind {first : Edit α} {next : α → Edit β} (left : first.KeepsCoherent)
    (right : ∀ value, (next value).KeepsCoherent)
    : KeepsCoherent (first >>= next) := by
  intro tree coherent
  have middle := left tree coherent
  rw [apply_bind]
  cases outcome : first.apply tree with
  | mk result after =>
      rw [outcome] at middle
      cases result with
      | ok value => exact right value after middle
      | error error => exact middle

theorem KeepsCoherent.require (id : NodeId) (fault : ShapeFault) (value : Option α)
    : KeepsCoherent (Edit.require id fault value) := by
  cases value with
  | none => exact .throw _
  | some value => exact .pure value

theorem KeepsCoherent.ensureNode (id : NodeId) : KeepsCoherent (Edit.ensureNode id) := by
  intro tree coherent
  rw [ensureNode_apply]
  cases tree.refusal? id <;> exact coherent

/-- Changing what a node says about itself keeps a tree coherent. -/
theorem KeepsCoherent.reword (id : NodeId) (f : Content → Content)
    : KeepsCoherent (do Edit.ensureNode id; modifyContent id f) := by
  intro tree coherent
  rw [reword_apply]
  cases tree.refusal? id with
  | some error => exact coherent
  | none =>
      simp only
      exact coherent.reword id f

theorem KeepsCoherent.setWritable (writable : Bool)
    : KeepsCoherent (Edit.setWritable writable) :=
  fun _ coherent => coherent.setWritable writable

theorem KeepsCoherent.replaceWithText (id : NodeId) (text : String)
    : KeepsCoherent (Edit.replaceWithText id text) := by
  intro tree coherent
  rw [replaceWithText_apply]
  cases tree.refusal? id with
  | some error => exact coherent
  | none => exact coherent.fragment id text

theorem KeepsCoherent.detach (id : NodeId) : KeepsCoherent (Edit.detach id) := by
  intro tree coherent
  rw [detach_apply]
  cases tree.refusal? id with
  | some error => exact coherent
  | none =>
      cases up : tree.parent? id with
      | none => exact coherent
      | some parent => exact coherent.cut up

theorem KeepsCoherent.addOutline (outline : Outline)
    : KeepsCoherent (Edit.addOutline outline) := by
  intro tree coherent
  rw [addOutline_apply]
  split
  · exact coherent.grow outline
  · exact coherent

/-- What hangs a node below another fails unless the node may be hung there. -/
theorem insertChild_hangable {tree : Tree} (linked : tree.Linked) {parent child : NodeId}
    (parentKnown : tree.refusal? parent = none) (childKnown : tree.refusal? child = none)
    (detached : ¬((tree.parent? child).isSome ∨ child = tree.root))
    (free : ¬(parent = child ∨ tree.isAncestor child parent))
    : tree.Hangable parent child where
  parentPresent := (Tree.refusal?_eq_none_iff.mp parentKnown).2
  childPresent := (Tree.refusal?_eq_none_iff.mp childKnown).2
  top := by simpa using (not_or.mp detached).1
  notRoot := (not_or.mp detached).2
  free := by
    rwa [reflTransGen_iff_eq_or_transGen, ← Tree.Above, ← linked.isAncestor_iff]

theorem KeepsCoherent.insertChild (parent : NodeId) (index : Nat) (child : NodeId)
    : KeepsCoherent (Edit.insertChild parent index child) := by
  intro tree coherent
  rw [insertChild_apply]
  cases parentKnown : tree.refusal? parent with
  | some error => exact coherent
  | none =>
      cases childKnown : tree.refusal? child with
      | some error => exact coherent
      | none =>
          simp only
          split
          · exact coherent
          · next detached =>
              split
              · exact coherent
              · next free =>
                  exact coherent.hang
                    (insertChild_hangable coherent.toLinked parentKnown childKnown detached free)
                    index

theorem KeepsCoherent.appendChild (parent child : NodeId)
    : KeepsCoherent (Edit.appendChild parent child) :=
  .bind .current fun _ => .insertChild parent _ child

end Edit
end TreeLint
