import TreeLint.Outline.Builder
import TreeLint.Proofs.Rule.Anchors
import TreeLint.Proofs.Tree.Numbering

/-! Methods `clone()` that leave out the one above. The search below a method stops at the first
call of it and stays out of classes, so it tells whether there is such a call at all. Main result:
each `clone()` without one is reported exactly once.
-/

namespace TreeLint

namespace Tree

-----------------------------------------------------------------------------------------
-- Calls of the clone above
-----------------------------------------------------------------------------------------

/-- The node is a call of `clone()` on `super`, in whichever parentheses. -/
def CallsSuper (tree : Tree) (id : NodeId) : Prop :=
  ∃ call,
    tree.subtree? id = some call
    ∧ call.kind = .methodCall
    ∧ call.name? = some "clone"
    ∧ ∃ qualifier,
        call.childWithRole? .qualifier = some qualifier
        ∧ qualifier.stripParentheses.kind = .superExpression

theorem callsSuper_iff {tree : Tree} {node : Subtree}
    (shown : tree.subtree? node.id = some node)
    : tree.CallsSuper node.id ↔ node.isSuperClone := by
  rw [CallsSuper, shown]
  simp [Subtree.isSuperClone, Option.any_eq_true, and_assoc]

/-- The search below a node comes to a call exactly if there is one that no class hides, by
induction on the subtree.
-/
theorem Linked.callsSuperClone_iff {tree : Tree} (linked : tree.Linked) {node : Subtree}
    (shown : tree.subtree? node.id = some node)
    : node.callsSuperClone
      ↔ ∃ call, tree.ClearlyAbove tree.isClassAt node.id call ∧ tree.CallsSuper call := by
  induction node using Subtree.induction with
  | step node ih =>
      rw [Subtree.callsSuperClone_eq, List.any_eq_true]
      constructor
      · rintro ⟨child, member, found⟩
        have childShown := (subtree?_of_mem_children shown member).1
        have link := linked.parent?_of_mem_children shown member
        rw [Bool.or_eq_true, Bool.and_eq_true, Bool.not_eq_true', ← isClassAt_of_shown childShown,
          ih child member childShown, ← callsSuper_iff childShown] at found
        rcases found with isCall | ⟨outside, call, clear, isCall⟩
        · exact ⟨child.id, linked.clearlyAbove_iff.mpr ⟨child.id, link, Or.inl rfl⟩, isCall⟩
        · exact ⟨call,
            linked.clearlyAbove_iff.mpr ⟨child.id, link, Or.inr ⟨outside, clear⟩⟩, isCall⟩
      · rintro ⟨call, clear, isCall⟩
        obtain ⟨below, link, way⟩ := linked.clearlyAbove_iff.mp clear
        obtain ⟨child, member, rfl⟩ := linked.child_of_parent? shown link
        have childShown := (subtree?_of_mem_children shown member).1
        refine ⟨child, member, ?_⟩
        rw [Bool.or_eq_true, Bool.and_eq_true, Bool.not_eq_true', ← isClassAt_of_shown childShown,
          ih child member childShown, ← callsSuper_iff childShown]
        rcases way with rfl | ⟨outside, clear⟩
        · exact Or.inl isCall
        · exact Or.inr ⟨outside, call, clear, isCall⟩

-----------------------------------------------------------------------------------------
-- Methods that clone
-----------------------------------------------------------------------------------------

/-- The node is a method `clone()` of a class with a body to be written. -/
structure Clones (tree : Tree) (id : NodeId) : Prop where
  method
    : ∃ content,
        tree.content? id = some content
        ∧ content.kind = .method
        ∧ content.name = some "clone"
        ∧ ¬content.hasModifier .abstract
  bare : ∀ child, tree.parent? child = some id → tree.kind? child ≠ some .parameter
  inClass
    : ∃ owner content,
        tree.parent? id = some owner
        ∧ tree.content? owner = some content
        ∧ content.kind.isClass
        ∧ content.facts.classKind ≠ .interface
        ∧ content.facts.classKind ≠ .annotationType

theorem Clones.isMethod {tree : Tree} {id : NodeId} (clones : tree.Clones id)
    : tree.kind? id = some .method := by
  obtain ⟨content, known, isMethod, _⟩ := clones.method
  exact kind?_eq_some_iff.mpr ⟨content, known, isMethod⟩

/-- The node is a `clone()` without a call of the one above in its own code. -/
structure BreaksCloning (tree : Tree) (id : NodeId) : Prop where
  clones : tree.Clones id
  alone : ¬∃ call, tree.ClearlyAbove tree.isClassAt id call ∧ tree.CallsSuper call

/-- The test for a `clone()` that leaves out the one above. -/
def leavesOutSuper (tree : Tree) (method : Subtree) : Bool :=
  method.isCloneMethod (tree.parentContent? method.id) && !method.callsSuperClone

theorem Linked.clones_iff {tree : Tree} (linked : tree.Linked) {node : Subtree}
    (shown : tree.subtree? node.id = some node) (isMethod : node.kind = .method)
    : node.isCloneMethod (tree.parentContent? node.id) ↔ tree.Clones node.id := by
  have bare : (node.childrenOfKind .parameter).isEmpty
      ↔ ∀ child, tree.parent? child = some node.id → tree.kind? child ≠ some .parameter := by
    rw [childrenOfKind_isEmpty_iff shown]
    simp only [linked.agree]
  have owned (test : Content → Bool) : (tree.parentContent? node.id).any test
      ↔ ∃ owner content,
          tree.parent? node.id = some owner
          ∧ tree.content? owner = some content
          ∧ test content := by
    simp [parentContent?, Option.any_bind, Option.any_eq_true]
  rw [Subtree.isCloneMethod, Bool.and_eq_true, Bool.and_eq_true, Bool.and_eq_true, bare, owned]
  constructor
  · rintro ⟨⟨⟨named, concrete⟩, bare⟩, owner, of, up, there, isBoth⟩
    rw [Bool.and_eq_true, Bool.and_eq_true, bne_iff_ne, bne_iff_ne, and_assoc] at isBoth
    exact ⟨⟨node.content, content?_of_shown shown, isMethod, beq_iff_eq.mp named,
      Bool.eq_false_iff.mp ((Bool.not_eq_true' _).mp concrete)⟩, bare, owner, of, up, there, isBoth⟩
  · rintro ⟨⟨content, known, _, named, concrete⟩, bare, owner, of, up, there, isClass, kinds⟩
    cases (content?_of_shown shown).symm.trans known
    refine ⟨⟨⟨?_, ?_⟩, bare⟩, owner, of, up, there, ?_⟩
    · exact beq_iff_eq.mpr named
    · exact (Bool.not_eq_true' _).mpr (Bool.eq_false_iff.mpr concrete)
    · simp [isClass, kinds]

/-- The test tells which methods clone without a call of the one above. -/
theorem Linked.leavesOutSuper_iff {tree : Tree} (linked : tree.Linked) {node : Subtree}
    (shown : tree.subtree? node.id = some node) (isMethod : node.kind = .method)
    : tree.leavesOutSuper node ↔ tree.BreaksCloning node.id := by
  rw [leavesOutSuper, Bool.and_eq_true, Bool.not_eq_true', ← Bool.not_eq_true,
    linked.callsSuperClone_iff shown, linked.clones_iff shown isMethod]
  exact ⟨fun ⟨clones, alone⟩ => ⟨clones, alone⟩, fun breaks => ⟨breaks.clones, breaks.alone⟩⟩

end Tree

-----------------------------------------------------------------------------------------
-- Each method is reported exactly once
-----------------------------------------------------------------------------------------

namespace Rule

/-- The walk of a method looks at the method and searches below it. -/
theorem found_cloning (context : PassContext) {node : Subtree} (isMethod : node.kind = .method)
    (around : Surroundings)
    : cloneCallsSuperClone.checker.found context node around
      = node.selfIf context.tree.leavesOutSuper := by
  rw [Checker.found_eq, Checker.stepAt, isMethod]
  rfl

/-- The nodes reported are the attached methods `clone()` that leave out the one above. -/
theorem mem_anchors_cloning {tree : Tree} (linked : tree.Linked) {id : NodeId}
    : id ∈ (cloneCallsSuperClone.anchors tree).map Subtree.id
      ↔ id ∈ tree.preorder ∧ tree.BreaksCloning id :=
  mem_anchors_tested rfl linked (fun _ _ _ isMethod => found_cloning _ isMethod _)
    (fun _ shown isMethod => linked.leavesOutSuper_iff shown isMethod)
    fun _ breaks => breaks.clones.isMethod

/-- A run of the rule that nobody stops reports each attached `clone()` that leaves out the one
above once, and nothing else, whatever the options say.
-/
theorem brokenClone_reportedOnce {tree : Tree} (coherent : tree.Coherent)
    (options : PassOptions) {flag : Option CancelFlag} (idle : ∀ held ∈ flag, held = { })
    (id : NodeId)
    : (id ∈ tree.preorder ∧ tree.BreaksCloning id
        → (Inspection.inspectTree cloneCallsSuperClone tree options flag).reported.countP
            (·.anchor = id) = 1)
      ∧ (¬(id ∈ tree.preorder ∧ tree.BreaksCloning id)
        → (Inspection.inspectTree cloneCallsSuperClone tree options flag).reported.countP
            (·.anchor = id) = 0) := by
  have once : ((cloneCallsSuperClone.anchors tree).map Subtree.id).Nodup := by
    have each (scope : Scope) (method : Subtree) (_ : tree.subtree? method.id = some method)
        (isMethod : method.kind = .method)
        : cloneCallsSuperClone.checker.found { tree, scope } method { }
          = method.selfIf tree.leavesOutSuper :=
      found_cloning _ isMethod _
    rw [anchors_tested rfl each]
    exact (coherent.preorder_nodup.filter _).filter _
  exact countP_reported _ coherent.toLinked once (fun _ => mem_anchors_cloning coherent.toLinked)
    options idle id

end Rule

/-- A method `clone()` with one statement. -/
def cloneMethod (statement : Outline) : Outline :=
  (Outline.method "clone").withChild (Outline.codeBlock.withChild statement)

/-- A file with a `clone()` whose body makes an object of an anonymous class, and that has a
`clone()` that calls the one above in parentheses.
-/
def nestedClones : Document where
  root :=
    Outline.file.withChild <| (Outline.namedClass "Point").withChild <|
      cloneMethod <| Outline.expressionStatement <| (Outline.ofKind .newExpression).withChild <|
        (Outline.anonymousClass "Object").withChild <|
          cloneMethod <| Outline.returnStatement.withChild <| Outline.call "clone" <|
            (Outline.ofKind .parenthesizedExpression).withChild (Outline.ofKind .superExpression)

/-- The outer method is reported once, since the call is the inner one's, which is not reported. -/
theorem nestedClones_reported
    : (Inspection.inspectTree Rule.cloneCallsSuperClone (Tree.ofDocument nestedClones) { }
          (some { })).reported.countP (·.anchor = 2) = 1
      ∧ (Inspection.inspectTree Rule.cloneCallsSuperClone (Tree.ofDocument nestedClones) { }
          (some { })).reported.countP (·.anchor = 8) = 0 := by
  have coherent := Tree.ofDocument_coherent nestedClones
  have idle : ∀ held ∈ some ({ } : CancelFlag), held = { } :=
    fun held same => (Option.some.inj same).symm
  have once := Rule.brokenClone_reportedOnce coherent { } idle
  have searched {id : NodeId} (found : Bool)
      (result
        : ((Tree.ofDocument nestedClones).subtree? id).map Subtree.callsSuperClone = some found)
      : found
        ↔ ∃ call,
            (Tree.ofDocument nestedClones).ClearlyAbove
              (Tree.ofDocument nestedClones).isClassAt id call
            ∧ (Tree.ofDocument nestedClones).CallsSuper call := by
    obtain ⟨method, shown, rfl⟩ := Option.map_eq_some_iff.mp result
    obtain rfl := Tree.subtree?_id shown
    exact coherent.callsSuperClone_iff shown
  refine ⟨(once 2).1 ⟨by decide, ⟨⟨_, rfl, rfl, rfl, by decide⟩, ?_, ?_⟩, ?_⟩, (once 8).2 ?_⟩
  · intro child link
    have listed := coherent.agree.mpr link
    cases List.mem_singleton.mp listed
    decide
  · exact ⟨1, _, rfl, rfl, rfl, by decide, by decide⟩
  · exact (searched false rfl).not.mp Bool.false_ne_true
  · exact fun ⟨_, breaks⟩ => breaks.alone ((searched true rfl).mp rfl)

end TreeLint
