import TreeLint.Proofs.Fix.Moves

/-! The trees that occur: those that are loaded, and what edits and fixes make of them. Since a fix
is edits in a row, all of them are coherent.
-/

namespace TreeLint

namespace Fix

open Edit (KeepsCoherent)

/-- Cutting off some nodes keeps a tree coherent, by induction on the list. -/
theorem detachAll_keepsCoherent (ids : List NodeId) : KeepsCoherent (detachAll ids) := by
  induction ids with
  | nil => exact .pure ()
  | cons id rest ih => exact .bind (.detach id) fun _ => ih

/-- Moving some nodes keeps a tree coherent, by induction on the list. -/
theorem moveInto_keepsCoherent (target : NodeId) (ids : List NodeId)
    : KeepsCoherent (moveInto target ids) := by
  induction ids with
  | nil => exact .pure ()
  | cons id rest ih => exact .bind (.detach id) fun _ => .bind (.appendChild target id) fun _ => ih

/-- Declaring some variables apart keeps a tree coherent, by induction on the list. -/
theorem declareApart_keepsCoherent (block : NodeId) (index : Nat) (ids : List NodeId)
    : KeepsCoherent (declareApart block index ids) := by
  induction ids generalizing index with
  | nil => exact .pure ()
  | cons id rest ih =>
      exact .bind (.detach id) fun _ => .bind (.addOutline _) fun declaration =>
        .bind (.insertChild declaration 0 id) fun _ =>
          .bind (.insertChild block index declaration) fun _ => ih (index + 1)

theorem replaceAt_keepsCoherent (anchor : NodeId) (fault : ShapeFault)
    (text? : Subtree → Option String)
    : KeepsCoherent (replaceAt anchor fault text?) :=
  .bind (.ensureNode anchor) fun _ => .bind .current fun _ => .bind (.require anchor fault _)
    fun text => .replaceWithText anchor text

theorem nameInnerClassAt_keepsCoherent (anchor : NodeId)
    : KeepsCoherent (nameInnerClassAt anchor) :=
  .bind (.ensureNode anchor) fun _ => .bind .current fun _ => .bind (.require _ _ _) fun _ =>
    .bind (.require _ _ _) fun creation => .bind (.require _ _ _) fun outer =>
      .bind (.addOutline _) fun inner => .bind (moveInto_keepsCoherent inner _) fun _ =>
        .bind (.appendChild outer.id inner) fun _ => .replaceWithText creation _

theorem writeFieldType_keepsCoherent (field : Subtree) : KeepsCoherent (writeFieldType field) := by
  rw [writeFieldType]
  split
  · exact .bind (.require _ _ _) fun _ => .bind (.addOutline _) fun _ => .insertChild _ _ _
  · exact .pure ()

theorem splitStatement_keepsCoherent (declared : NodeId)
    : KeepsCoherent (splitStatement declared) :=
  .bind .current fun _ => .bind (.require _ _ _) fun _ => .bind (.require _ _ _) fun block =>
    declareApart_keepsCoherent block _ _

theorem splitDeclarationAt_keepsCoherent (anchor : NodeId)
    : KeepsCoherent (splitDeclarationAt anchor) := by
  refine .bind (.ensureNode anchor) fun _ => .bind .current fun tree => ?_
  cases tree.subtree? anchor with
  | none => exact .throw _
  | some node =>
      simp only
      split
      · exact splitStatement_keepsCoherent anchor
      · exact writeFieldType_keepsCoherent node
      · exact .throw _

theorem introduceVariableAt_keepsCoherent (anchor : NodeId)
    : KeepsCoherent (introduceVariableAt anchor) := by
  refine .bind (.ensureNode anchor) fun _ => .bind .current fun tree => ?_
  cases tree.subtree? anchor with
  | none => exact .throw _
  | some call =>
      refine .bind (.require _ _ _) fun qualifier => .bind (.require _ _ _) fun _ =>
        .bind (.require _ _ _) fun block => ?_
      refine .bind (.addOutline _) fun declaration => .bind .current fun _ =>
        .bind (.require _ _ _) fun declared => ?_
      exact .bind (.detach qualifier.id) fun _ => .bind (.reword qualifier.id _) fun _ =>
        .bind (.insertChild declared 0 qualifier.id) fun _ =>
          .bind (.insertChild block _ declaration) fun _ =>
            .bind (.addOutline _) fun reference => .insertChild anchor 0 reference

theorem removeObjectBoundAt_keepsCoherent (anchor : NodeId)
    : KeepsCoherent (removeObjectBoundAt anchor) := by
  refine .bind (.ensureNode anchor) fun _ => .bind .current fun tree => ?_
  cases tree.subtree? anchor with
  | none => exact .throw _
  | some parameter => exact detachAll_keepsCoherent _

/-- Every fix leaves a coherent tree coherent, also where it fails. -/
theorem applyAt_keepsCoherent (fix : Fix) (anchor : NodeId)
    : KeepsCoherent (fix.applyAt anchor) := by
  cases fix with
  | removeModifier modifier => exact .reword anchor _
  | nameInnerClass => exact nameInnerClassAt_keepsCoherent anchor
  | splitDeclaration => exact splitDeclarationAt_keepsCoherent anchor
  | introduceVariable => exact introduceVariableAt_keepsCoherent anchor
  | simplify => exact replaceAt_keepsCoherent anchor _ _
  | removeObjectBound => exact removeObjectBoundAt_keepsCoherent anchor
  | flipEquals => exact replaceAt_keepsCoherent anchor _ _
  | rename name => exact .reword anchor _

theorem coherent_of_applyAt {fix : Fix} {anchor : NodeId} {tree after : Tree}
    {result : Except FixError Unit} (coherent : tree.Coherent)
    (outcome : (fix.applyAt anchor).apply tree = (result, after))
    : after.Coherent := by
  have kept := fix.applyAt_keepsCoherent anchor tree coherent
  rwa [outcome] at kept

end Fix

-----------------------------------------------------------------------------------------
-- Trees that occur
-----------------------------------------------------------------------------------------

/-- A tree that occurs: a loaded one, or what an edit or a fix makes of one, also by failing. -/
inductive Tree.Reachable : Tree → Prop where
  | loaded (document : Document) : Reachable (Tree.ofDocument document)
  | called {tree : Tree} (before : tree.Reachable) (call : EditCall)
      : Reachable (tree.afterCall call)
  | fixed {tree : Tree} (before : tree.Reachable) (fix : Fix) (anchor : NodeId)
      : Reachable ((fix.applyAt anchor).apply tree).2

/-- Every tree that occurs is coherent, by induction on how it came about. -/
theorem Tree.Reachable.coherent {tree : Tree} (reachable : tree.Reachable) : tree.Coherent := by
  induction reachable with
  | loaded document => exact Tree.ofDocument_coherent document
  | called _ call ih => exact call.run_keepsCoherent _ ih
  | fixed _ fix anchor ih => exact fix.applyAt_keepsCoherent anchor _ ih

end TreeLint
