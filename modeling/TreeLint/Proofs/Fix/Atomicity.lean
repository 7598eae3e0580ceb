import TreeLint.Proofs.Fix.Reachability

/-! Every fix is all or nothing: it looks at the tree first, and once it has changed something it
cannot fail any more. The fixes that move nodes rely on coherence for that.
-/

namespace TreeLint.Fix

open Relation
open Edit (AllOrNothing Succeeds)

-----------------------------------------------------------------------------------------
-- Fixes that change one thing
-----------------------------------------------------------------------------------------

theorem replaceAt_allOrNothing (anchor : NodeId) (fault : ShapeFault)
    (text? : Subtree → Option String) (tree : Tree)
    : AllOrNothing (replaceAt anchor fault text?) tree := by
  refine .after_ensureNode fun writable present => .after_current (.after_require fun text _ => ?_)
  exact Succeeds.allOrNothing ⟨(), _, Edit.replaceWithText_ok writable present text⟩

theorem reword_allOrNothing (anchor : NodeId) (f : Content → Content) (tree : Tree)
    : AllOrNothing (do Edit.ensureNode anchor; Edit.modifyContent anchor f) tree :=
  .after_ensureNode fun _ _ => Succeeds.allOrNothing ⟨(), _, rfl⟩

theorem removeObjectBoundAt_allOrNothing {tree : Tree} (coherent : tree.Coherent) (anchor : NodeId)
    : AllOrNothing (removeObjectBoundAt anchor) tree := by
  refine .after_ensureNode fun writable _ => .after_current ?_
  cases shown : tree.subtree? anchor with
  | none => exact .throw _ tree
  | some parameter =>
      have bounds : parameter.objectBounds.Sublist parameter.children :=
        List.filter_sublist.trans List.filter_sublist
      exact (detachAll_succeeds writable (coherent.siblings shown bounds)).allOrNothing

-----------------------------------------------------------------------------------------
-- Fixes that add nodes
-----------------------------------------------------------------------------------------

/-- A new node can be hung below any node there was. -/
theorem hangNew_succeeds {tree : Tree} (coherent : tree.Coherent) (writable : tree.writable)
    {parent : NodeId} (present : parent < tree.size) (outline : Outline) (index : Nat)
    : Succeeds (do Edit.insertChild parent index (← Edit.addOutline outline)) tree := by
  have hangable : (tree.grow outline).Hangable parent tree.size :=
    (tree.grow_frame outline).hangable_new coherent present (by simp) (Nat.le_refl _)
      (tree.size_lt_grow outline) (tree.grow_parent?_size outline)
  have grownWritable : (tree.grow outline).writable := writable
  refine .bind (Edit.addOutline_ok writable outline) ?_
  exact ⟨(), _, Edit.insertChild_ok (coherent.grow outline).toLinked grownWritable hangable index⟩

theorem writeFieldType_allOrNothing {tree : Tree} (coherent : tree.Coherent)
    (writable : tree.writable) {field : Subtree} (present : field.id < tree.size)
    : AllOrNothing (writeFieldType field) tree := by
  rw [writeFieldType]
  split
  · refine .after_require fun typeName _ => Succeeds.allOrNothing ?_
    exact hangNew_succeeds coherent writable present _ 0
  · exact Succeeds.allOrNothing ⟨(), tree, rfl⟩

/-- What is found as the subtree of some node is the subtree of the node with its own number. -/
theorem shown_of_bind {tree : Tree} {start : Option NodeId} {found : Subtree}
    (shown : start.bind tree.subtree? = some found)
    : tree.subtree? found.id = some found := by
  obtain ⟨id, _, there⟩ := Option.bind_eq_some_iff.mp shown
  rwa [Tree.subtree?_id there]

theorem splitStatement_allOrNothing {tree : Tree} (coherent : tree.Coherent)
    (writable : tree.writable) (declared : NodeId)
    : AllOrNothing (splitStatement declared) tree := by
  refine .after_current (.after_require fun statement found => ?_)
  refine .after_require fun block inBlock => ?_
  have shown := shown_of_bind (Option.filter_eq_some_iff.mp found).1
  have later : ((statement.childrenOfKind .localVariable).drop 1).Sublist statement.children :=
    (List.drop_sublist 1 _).trans List.filter_sublist
  exact (declareApart_succeeds coherent writable inBlock (coherent.siblings shown later)
    _).allOrNothing

theorem splitDeclarationAt_allOrNothing {tree : Tree} (coherent : tree.Coherent) (anchor : NodeId)
    : AllOrNothing (splitDeclarationAt anchor) tree := by
  refine .after_ensureNode fun writable present => .after_current ?_
  cases shown : tree.subtree? anchor with
  | none => exact .throw _ tree
  | some node =>
      simp only
      split
      · exact splitStatement_allOrNothing coherent writable anchor
      · refine writeFieldType_allOrNothing coherent writable ?_
        rwa [Tree.subtree?_id shown]
      · exact .throw _ tree

-----------------------------------------------------------------------------------------
-- Fixes that move nodes
-----------------------------------------------------------------------------------------

theorem enclosingClass?_above {tree : Tree} (linked : tree.Linked) {id outer : NodeId}
    (found : tree.enclosingClass? id = some outer)
    : tree.Above outer id :=
  linked.mem_ancestors.mp (List.mem_of_find?_eq_some found)

/-- Once the anonymous class, what creates it and the class around it are known, its members can
be moved to a new class. The class around it is above the members, so it does not move.
-/
theorem nameInnerClass_succeeds {tree : Tree} (coherent : tree.Coherent) (writable : tree.writable)
    {anonymous creation outer : NodeId} {members : List NodeId}
    (siblings : tree.Siblings anonymous members) (created : tree.parent? anonymous = some creation)
    (around : tree.Above outer anonymous) (outline : Outline) (text : String)
    : Edit.Succeeds
        (do
          let inner ← Edit.addOutline outline
          moveInto inner members
          Edit.appendChild outer inner
          Edit.replaceWithText creation text)
        tree := by
  let grown := tree.grow outline
  have grownCoherent : grown.Coherent := coherent.grow outline
  have grownFrame : tree.Frame [] grown := tree.grow_frame outline
  have grownWritable : grown.writable := writable
  have top : grown.parent? tree.size = none := tree.grow_parent?_size outline
  have fresh : tree.size < grown.size := tree.size_lt_grow outline
  obtain ⟨filled, moved, filledCoherent, filledFrame⟩ :=
    moveInto_ok grownCoherent grownWritable fresh top (siblings.still grownFrame)
  have frame : tree.Frame members filled :=
    grownFrame.trans filledFrame (by simp) (fun _ _ member => member)
  -- The class around is a strict ancestor of every member, so the new class, which is younger than
  -- all that moved, cannot be above it.
  have still : tree.size ∉ members := fun member =>
    Nat.lt_irrefl _ (Tree.lt_size_of_parent? (siblings.below _ member))
  have hangable : filled.Hangable outer tree.size := by
    refine frame.hangable_new coherent (coherent.above_lt around).1 ?_ (Nat.le_refl _) ?_ ?_
    · intro id member
      exact Tree.above_iff.mpr ⟨anonymous, siblings.below id member, Or.inr around⟩
    · exact Nat.lt_of_lt_of_le fresh filledFrame.grows
    · rw [filledFrame.parents _ fresh still, top]
  have filledWritable : filled.writable := frame.writable.trans writable
  have appended := Edit.insertChild_ok filledCoherent.toLinked filledWritable hangable
    (filled.childIds outer).length
  rw [← Edit.appendChild_apply] at appended
  refine .bind (Edit.addOutline_ok writable outline) (.bind moved (.bind appended ?_))
  have hungWritable : (filled.hang outer (filled.childIds outer).length tree.size).writable :=
    filledWritable
  refine ⟨(), _, Edit.replaceWithText_ok hungWritable ?_ text⟩
  rw [Tree.hang_size]
  exact Nat.lt_of_lt_of_le (coherent.parent_lt created) frame.grows

theorem nameInnerClassAt_allOrNothing {tree : Tree} (coherent : tree.Coherent) (anchor : NodeId)
    : AllOrNothing (nameInnerClassAt anchor) tree := by
  refine .after_ensureNode fun writable _ => .after_current ?_
  refine .after_require fun anonymous found => .after_require fun creation created => ?_
  refine .after_require fun outer enclosing => Succeeds.allOrNothing ?_
  have shown := shown_of_bind (Option.filter_eq_some_iff.mp found).1
  obtain ⟨around, isClass, outerShown⟩ := Option.bind_eq_some_iff.mp enclosing
  rw [← Tree.subtree?_id outerShown] at isClass
  exact nameInnerClass_succeeds coherent writable
    (coherent.siblings shown List.filter_sublist) created
    (enclosingClass?_above coherent.toLinked isClass) _ _

/-- The only child of a new node with one child is the next node. -/
theorem grow_childIds_one (tree : Tree) (kind : NodeKind) (child : Outline)
    : (tree.grow ((Outline.ofKind kind).withChild child)).childIds tree.size = [tree.size + 1] := by
  have top := tree.grow_node?_add ((Outline.ofKind kind).withChild child) 0
  rw [Nat.add_zero] at top
  rw [Tree.childIds, top]
  rfl

/-- A node without a parent may be hung below a child of another one that nothing is above. -/
theorem hangable_below_child {tree : Tree} {upper parent child : NodeId}
    (up : tree.parent? parent = some upper) (upperTop : tree.parent? upper = none)
    (present : child < tree.size) (top : tree.parent? child = none) (notRoot : child ≠ tree.root)
    (notUpper : child ≠ upper) (notParent : child ≠ parent)
    : tree.Hangable parent child where
  parentPresent := Tree.lt_size_of_parent? up
  childPresent := present
  top := top
  notRoot := notRoot
  free := by
    rw [reflTransGen_iff_eq_or_transGen]
    rintro (same | above)
    · exact notParent same.symm
    · obtain ⟨next, link, upward⟩ := Tree.above_iff.mp above
      rw [up] at link
      cases link
      exact upward.elim notUpper (Tree.not_above_of_top upperTop)

/-- A node can be cut off and hung below the only child of a new node, and nothing else is moved.
The rest of an edit follows on a coherent tree then, on which the new node has no parent yet.
-/
theorem fillNew_succeeds {tree : Tree} (coherent : tree.Coherent) (writable : tree.writable)
    {parent id : NodeId} (up : tree.parent? id = some parent) (kind : NodeKind) (inside : Outline)
    (fault : ShapeFault) (role : Role) {rest : NodeId → Edit α}
    (follows :
      ∀ after : Tree,
        after.Coherent
        → tree.Frame [id] after
        → tree.size < after.size
        → after.parent? tree.size = none
        → (rest tree.size).Succeeds after)
    : Edit.Succeeds
        (do
          let upper ← Edit.addOutline ((Outline.ofKind kind).withChild inside)
          let lower ← Edit.require upper fault (((← Edit.current).childIds upper).head?)
          Edit.detach id
          Edit.setRole id role
          Edit.insertChild lower 0 id
          rest upper)
        tree := by
  let outline := (Outline.ofKind kind).withChild inside
  have old := Tree.lt_size_of_parent? up
  have grownCoherent := coherent.grow outline
  have grownFrame := tree.grow_frame outline
  have grownWritable : (tree.grow outline).writable := writable
  have lowerUp : (tree.grow outline).parent? (tree.size + 1) = some tree.size := by
    rw [← grownCoherent.agree, grow_childIds_one]
    exact List.mem_cons_self
  have grownUp : (tree.grow outline).parent? id = some parent := by
    rw [grownFrame.parents id old List.not_mem_nil, up]
  -- What was above the node does not matter any more once it is cut off: the two new nodes are the
  -- only ones above the place that it is hung at.
  let cut := ((tree.grow outline).cut parent id).reword id ({ · with role })
  have cutCoherent : cut.Coherent := (grownCoherent.cut grownUp).reword _ _
  have cutFrame : (tree.grow outline).Frame [id] cut :=
    (Tree.cut_frame _ parent id).trans (Tree.reword_frame _ id _)
      (fun _ member => member) (by simp)
  have notUpper : id ≠ tree.size := Nat.ne_of_lt old
  have notLower : id ≠ tree.size + 1 := Nat.ne_of_lt (Nat.lt_succ_of_lt old)
  have top : cut.parent? tree.size = none := by
    rw [cutFrame.parents _ (tree.size_lt_grow outline) (by simpa using notUpper.symm)]
    exact tree.grow_parent?_size outline
  have notRoot : id ≠ cut.root := by
    rw [cutFrame.root, grownFrame.root]
    exact coherent.ne_root up
  have hangable : cut.Hangable (tree.size + 1) id := by
    refine hangable_below_child ?_ top ?_ ?_ notRoot notUpper notLower
    · rw [cutFrame.parents _ (Tree.lt_size_of_parent? lowerUp) (by simpa using notLower.symm)]
      exact lowerUp
    · exact Nat.lt_of_lt_of_le (Tree.lt_size_of_parent? grownUp) cutFrame.grows
    · rw [Tree.reword_parent?, Tree.cut_parent?, if_pos rfl]
  have frame : tree.Frame [id] (cut.hang (tree.size + 1) 0 id) :=
    (grownFrame.trans cutFrame (by simp) (fun _ _ member => member)).trans
      (Tree.hang_frame hangable 0) (fun _ member => member) (fun _ _ member => member)
  have detachedWritable : ((tree.grow outline).cut parent id).writable := grownWritable
  have cutWritable : cut.writable := cutFrame.writable.trans grownWritable
  have cutPresent : id < ((tree.grow outline).cut parent id).size := by
    rw [Tree.cut_size]
    exact Tree.lt_size_of_parent? grownUp
  -- The steps of the edit in their order, each with the reason why it cannot fail.
  refine .bind (Edit.addOutline_ok writable outline) (.bind (Edit.apply_current _) ?_)
  rw [grow_childIds_one]
  refine .bind (Edit.apply_require_some _ _ _ _) (.bind (Edit.detach_ok grownWritable grownUp) ?_)
  refine .bind (Edit.setRole_ok detachedWritable cutPresent role) ?_
  refine .bind (Edit.insertChild_ok cutCoherent.toLinked cutWritable hangable 0) ?_
  refine follows _ (cutCoherent.hang hangable 0) frame ?_ ?_
  · rw [Tree.hang_size]
    exact Nat.lt_of_lt_of_le (tree.size_lt_grow outline) cutFrame.grows
  · rw [Tree.hang_parent? hangable.childPresent, if_neg notUpper.symm, top]

/-- Once the receiver of a call and a block above the call are known, a variable can be declared in
the block. The block and the call are above all that moves, so they do not move themselves.
-/
theorem introduceVariable_succeeds {tree : Tree} (coherent : tree.Coherent)
    (writable : tree.writable) {anchor receiver block : NodeId}
    (up : tree.parent? receiver = some anchor) (around : tree.Above block anchor)
    (declares refers : Outline) (index : Nat)
    : Edit.Succeeds
        (do
          let declaration ←
            Edit.addOutline ((Outline.ofKind .declarationStatement).withChild declares)
          let declared ←
            Edit.require declaration .noDeclaredVariable
              (((← Edit.current).childIds declaration).head?)
          Edit.detach receiver
          Edit.setRole receiver .initializer
          Edit.insertChild declared 0 receiver
          Edit.insertChild block index declaration
          Edit.insertChild anchor 0 (← Edit.addOutline refers))
        tree := by
  refine fillNew_succeeds coherent writable up _ _ _ _ ?_
  intro filled filledCoherent frame present top
  have hangable : filled.Hangable block tree.size := by
    refine frame.hangable_new coherent (coherent.above_lt around).1 ?_ (Nat.le_refl _) present top
    intro moved member
    rw [List.mem_singleton.mp member]
    exact Tree.above_iff.mpr ⟨anchor, up, Or.inr around⟩
  have filledWritable : filled.writable := frame.writable.trans writable
  have anchorPresent : anchor < filled.size :=
    Nat.lt_of_lt_of_le (coherent.parent_lt up) frame.grows
  refine .bind (Edit.insertChild_ok filledCoherent.toLinked filledWritable hangable _) ?_
  refine hangNew_succeeds (filledCoherent.hang hangable _) filledWritable ?_ _ 0
  rwa [Tree.hang_size]

theorem introduceVariableAt_allOrNothing {tree : Tree} (coherent : tree.Coherent)
    (anchor : NodeId)
    : AllOrNothing (introduceVariableAt anchor) tree := by
  refine .after_ensureNode fun writable _ => .after_current ?_
  cases shown : tree.subtree? anchor with
  | none => exact .throw _ tree
  | some call =>
      refine .after_require fun qualifier found => .after_require fun statement above => ?_
      refine .after_require fun block inBlock => Succeeds.allOrNothing ?_
      have up := coherent.parent?_of_mem_children shown (List.mem_of_find?_eq_some found)
      have higher := coherent.mem_ancestors.mp (List.mem_of_find?_eq_some above)
      exact introduceVariable_succeeds coherent writable up (TransGen.head inBlock higher) _ _ _

-----------------------------------------------------------------------------------------
-- All fixes
-----------------------------------------------------------------------------------------

theorem applyAt_allOrNothing {tree : Tree} (coherent : tree.Coherent) (fix : Fix) (anchor : NodeId)
    : AllOrNothing (fix.applyAt anchor) tree := by
  cases fix with
  | removeModifier modifier => exact reword_allOrNothing anchor _ tree
  | nameInnerClass => exact nameInnerClassAt_allOrNothing coherent anchor
  | splitDeclaration => exact splitDeclarationAt_allOrNothing coherent anchor
  | introduceVariable => exact introduceVariableAt_allOrNothing coherent anchor
  | simplify => exact replaceAt_allOrNothing anchor _ _ tree
  | removeObjectBound => exact removeObjectBoundAt_allOrNothing coherent anchor
  | flipEquals => exact replaceAt_allOrNothing anchor _ _ tree
  | rename name => exact reword_allOrNothing anchor _ tree

/-- The fix of a diagnostic fails and leaves the tree as it was, or is applied. -/
theorem applyFix_cases {tree : Tree} (coherent : tree.Coherent) (diagnostic : Diagnostic)
    : (∃ error, diagnostic.applyFix.apply tree = (.error error, tree))
      ∨ ∃ fix after,
          diagnostic.fix = some fix
          ∧ diagnostic.applyFix.apply tree = (.ok (), after)
          ∧ (fix.applyAt diagnostic.anchor).apply tree = (.ok (), after) := by
  rw [Diagnostic.applyFix]
  cases diagnostic.fix with
  | none => exact .inl ⟨.noFix, rfl⟩
  | some fix =>
      dsimp only
      cases outcome : (fix.applyAt diagnostic.anchor).apply tree with
      | mk answer after =>
          cases answer with
          | ok _ => exact .inr ⟨fix, after, rfl, rfl, outcome⟩
          | error error =>
              obtain rfl := applyAt_allOrNothing coherent fix diagnostic.anchor error after outcome
              exact .inl ⟨error, rfl⟩

/-- Every fix asks first whether the tree may be changed. -/
theorem applyAt_readOnly {tree : Tree} (readOnly : tree.writable = false) (fix : Fix)
    (anchor : NodeId)
    : (fix.applyAt anchor).apply tree = (.error .readOnly, tree) := by
  cases fix <;> exact Edit.ensureNode_bind_readOnly readOnly anchor _

/-- Trying the fix of one more diagnostic on a tree that may not be changed skips it. -/
theorem step_readOnly {tree : Tree} (readOnly : tree.writable = false) (skipped : Nat)
    (diagnostic : Diagnostic)
    : FixSummary.step ({ applied := 0, skipped }, tree) diagnostic
      = ({ applied := 0, skipped := skipped + if diagnostic.fix.isSome then 1 else 0 }, tree) := by
  rw [FixSummary.step, Diagnostic.applyFix]
  cases diagnostic.fix with
  | none => rfl
  | some fix => simp [applyAt_readOnly readOnly fix diagnostic.anchor]

/-- Fixes tried on a tree that may not be changed are all skipped, by induction on the report. -/
theorem foldl_step_readOnly {tree : Tree} (readOnly : tree.writable = false) (skipped : Nat)
    (diagnostics : List Diagnostic)
    : diagnostics.foldl FixSummary.step ({ applied := 0, skipped }, tree)
      = ({ applied := 0, skipped := skipped + diagnostics.countP (·.fix.isSome) }, tree) := by
  induction diagnostics generalizing skipped with
  | nil => rfl
  | cons diagnostic rest ih =>
      rw [List.foldl_cons, step_readOnly readOnly, ih, List.countP_cons, Nat.add_assoc,
        Nat.add_comm (List.countP _ rest)]

/-- Every fix of every tree that occurs, at every number: where it fails, the tree is exactly what
it was, and where the tree may not be changed, that is why it fails and why a report's fixes are
skipped.
-/
theorem applyAt_atomic {tree : Tree} (reachable : tree.Reachable) (fix : Fix) (anchor : NodeId)
    : (∀ error after, (fix.applyAt anchor).apply tree = (.error error, after) → after = tree)
      ∧ (tree.writable = false → (fix.applyAt anchor).apply tree = (.error .readOnly, tree))
      ∧ (tree.writable = false →
          ∀ diagnostics : List Diagnostic,
            applyAll diagnostics tree
            = ({ applied := 0, skipped := diagnostics.countP (·.fix.isSome) }, tree)) := by
  refine ⟨applyAt_allOrNothing reachable.coherent fix anchor,
    fun readOnly => applyAt_readOnly readOnly fix anchor, fun readOnly diagnostics => ?_⟩
  rw [applyAll, foldl_step_readOnly readOnly, Nat.zero_add, List.countP_reverse]

/-- A file with an anonymous class outside of any named one. -/
def unenclosedDocument : Document where
  root :=
    (Outline.ofKind .file).withChild
      ((Outline.ofKind .newExpression).withChild
        ((Outline.ofKind .anonymousClass).withChild
          ((Outline.reference "Base").withRole .baseClass)))

/-- There is no class for the anonymous one to move to, so naming it fails and changes nothing. -/
theorem nameInnerClass_unenclosed
    : (Fix.nameInnerClass.applyAt 3).apply (Tree.ofDocument unenclosedDocument)
      = (.error (.shape 2 .noEnclosingClass), Tree.ofDocument unenclosedDocument) := by
  let result := (Fix.nameInnerClass.applyAt 3).apply (Tree.ofDocument unenclosedDocument)
  have fails : result.1 = .error (.shape 2 .noEnclosingClass) := rfl
  have atomic := applyAt_atomic (.loaded unenclosedDocument) .nameInnerClass 3
  exact Prod.ext fails (atomic.1 _ result.2 (Prod.ext fails rfl))

end TreeLint.Fix
