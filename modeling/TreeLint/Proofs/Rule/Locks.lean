import TreeLint.Outline.Builder
import TreeLint.Proofs.Rule.Anchors
import TreeLint.Proofs.Tree.Code
import TreeLint.Proofs.Tree.Numbering

/-! Uses of exposed fields in code that holds a lock. The walk carries along whether the code around
holds a lock, and at each node this is what the nearest method or synchronized statement above says.
Main result: where no method lies in the code of another one, each such use is reported exactly
once.
-/

namespace TreeLint

open Relation

-----------------------------------------------------------------------------------------
-- Code that holds a lock
-----------------------------------------------------------------------------------------

namespace Tree

/-- The node says whether the code below it holds a lock: it is a method or a synchronized
statement.
-/
def decidesLock (tree : Tree) (id : NodeId) : Bool :=
  (tree.kind? id).any [.method, .synchronizedStatement].contains

/-- The node is a synchronized statement or a synchronized method. -/
def holdsLock (tree : Tree) (id : NodeId) : Bool :=
  (tree.content? id).any fun content =>
    content.kind == .synchronizedStatement
      || content.kind == .method && content.hasModifier .synchronized

/-- What decides for the code around a node holds a lock. -/
def underLock (tree : Tree) (id : NodeId) : Bool :=
  ((tree.ancestors id).find? tree.decidesLock).any tree.holdsLock

theorem decidesLock_of_shown {tree : Tree} {node : Subtree}
    (shown : tree.subtree? node.id = some node)
    : tree.decidesLock node.id = [.method, .synchronizedStatement].contains node.kind := by
  rw [decidesLock, kind?_of_shown shown, Option.any_some]

theorem holdsLock_of_shown {tree : Tree} {node : Subtree}
    (shown : tree.subtree? node.id = some node)
    : tree.holdsLock node.id
      = (node.kind == .synchronizedStatement
        || node.kind == .method && node.hasModifier .synchronized) := by
  rw [holdsLock, content?_of_shown shown]
  rfl

theorem Linked.underLock_iff {tree : Tree} (linked : tree.Linked) {id : NodeId}
    : tree.underLock id
      ↔ ∃ holder, tree.Nearest tree.decidesLock holder id ∧ tree.holdsLock holder := by
  rw [underLock, Option.any_eq_true]
  simp only [linked.find?_ancestors_iff]

/-- The parent decides for its children, or else what decides for it. -/
theorem Linked.underLock_child {tree : Tree} (linked : tree.Linked) {parent child : NodeId}
    (link : tree.parent? child = some parent)
    : tree.underLock child
      = if tree.decidesLock parent then tree.holdsLock parent else tree.underLock parent := by
  rw [underLock, linked.ancestors_eq, link, List.find?_cons]
  cases tree.decidesLock parent <;> rfl

/-- The node refers to a field that code outside its class can change. -/
def RefersToExposed (tree : Tree) (id : NodeId) : Prop :=
  ∃ content target,
    tree.content? id = some content
    ∧ tree.resolve? content = some target
    ∧ target.kind? = some .fieldSymbol
    ∧ ¬target.hasModifier .privateAccess
    ∧ ¬target.hasModifier .final

theorem refersToExposed_iff {tree : Tree} {id : NodeId}
    : tree.RefersToExposed id
      ↔ ((tree.content? id).bind tree.resolve?).any Checker.isExposedField := by
  simp [RefersToExposed, Checker.isExposedField, Option.any_bind, Option.any_eq_true, and_assoc]

/-- The node is a use of an exposed field in the code of a method, and that code holds a lock. -/
structure LockedAccess (tree : Tree) (id : NodeId) : Prop where
  attached : id ∈ tree.preorder
  reference : tree.kind? id = some .referenceExpression
  exposed : tree.RefersToExposed id
  inMethod : ∃ method, tree.isMethodAt method ∧ tree.ClearlyAbove tree.isClassAt method id
  locked : ∃ holder, tree.Nearest tree.decidesLock holder id ∧ tree.holdsLock holder

/-- The test for a use of an exposed field under a lock. -/
def usesUnderLock (tree : Tree) (node : Subtree) : Bool :=
  node.kind == .referenceExpression && tree.underLock node.id
    && (tree.resolve? node.content).any Checker.isExposedField

theorem Linked.usesUnderLock_iff {tree : Tree} (linked : tree.Linked) {node : Subtree}
    (shown : tree.subtree? node.id = some node)
    : tree.usesUnderLock node
      ↔ tree.kind? node.id = some .referenceExpression
        ∧ (∃ holder, tree.Nearest tree.decidesLock holder node.id ∧ tree.holdsLock holder)
        ∧ tree.RefersToExposed node.id := by
  rw [usesUnderLock, Bool.and_eq_true, Bool.and_eq_true, linked.underLock_iff,
    refersToExposed_iff, kind?_of_shown shown, content?_of_shown shown, Option.bind_some,
    beq_iff_eq, Option.some.injEq, and_assoc]

end Tree

-----------------------------------------------------------------------------------------
-- What the walk carries along
-----------------------------------------------------------------------------------------

/-- What the walk knows of the code below a node, given what it knows of the code around it. -/
def Subtree.surroundings (node : Subtree) (around : Surroundings) : Surroundings where
  synchronized :=
    if node.kind = .method then
      node.hasModifier .synchronized
    else
      node.kind = .synchronizedStatement || around.synchronized

theorem Rule.stepAt_locks (context : PassContext) (around : Surroundings) (node : Subtree)
    : Rule.publicFieldAccessedInSynchronizedContext.checker.stepAt context around node
      = if node.kind.isClass then
          .skip
        else
          .walk (node.surroundings around)
            (node.selfIf fun reference =>
              reference.kind == .referenceExpression && around.synchronized
                && (context.tree.resolve? reference.content).any Checker.isExposedField) := by
  rw [Checker.stepAt, Subtree.surroundings, Subtree.selfIf]
  cases node.kind <;> rfl

/-- What the walk carries along to the children of a node is what decides for them, if it was what
decides for the node. A method decides for its children whatever is around it.
-/
theorem Tree.surroundings_child {tree : Tree} (linked : tree.Linked) {node : Subtree}
    (shown : tree.subtree? node.id = some node) {around : Surroundings}
    (agrees : node.kind = .method ∨ around.synchronized = tree.underLock node.id)
    {child : NodeId} (link : tree.parent? child = some node.id)
    : (node.surroundings around).synchronized = tree.underLock child := by
  rw [linked.underLock_child link, decidesLock_of_shown shown, holdsLock_of_shown shown,
    Subtree.surroundings]
  by_cases isMethod : node.kind = .method
  · simp [isMethod]
  · rw [agrees.resolve_left isMethod]
    by_cases isBlock : node.kind = .synchronizedStatement <;> simp [isMethod, isBlock]

/-- The walk reports the uses of exposed fields under a lock in the code below a node, by induction
on the subtree. What it carries along is right at each node, as it was where the walk began.
-/
theorem Rule.found_locks {context : PassContext} (linked : context.tree.Linked) {node : Subtree}
    (shown : context.tree.subtree? node.id = some node) {around : Surroundings}
    (agrees : node.kind = .method ∨ around.synchronized = context.tree.underLock node.id)
    : Rule.publicFieldAccessedInSynchronizedContext.checker.found context node around
      = node.codeNodes.filter context.tree.usesUnderLock := by
  induction node using Subtree.induction generalizing around with
  | step node ih =>
      have below (child : Subtree) (member : child ∈ node.children)
          : Rule.publicFieldAccessedInSynchronizedContext.checker.found context child
              (node.surroundings around)
            = child.codeNodes.filter context.tree.usesUnderLock := by
        have link := linked.parent?_of_mem_children shown member
        exact ih child member (Tree.subtree?_of_mem_children shown member).1
          (Or.inr (Tree.surroundings_child linked shown agrees link))
      rw [Checker.found_eq, stepAt_locks, Subtree.codeNodes_eq]
      split
      · rfl
      · rw [List.filter_append, List.filter_flatMap, List.filter_singleton]
        refine congrArg₂ _ (List.flatMap_congr below) ?_
        rw [Step.walk, Subtree.selfIf, Tree.usesUnderLock, cond_eq_ite]
        -- A method is no reference, so it is not reported whatever is around it.
        rcases agrees with isMethod | same
        · rw [isMethod]
          rfl
        · rw [same]

-----------------------------------------------------------------------------------------
-- Each use is reported exactly once
-----------------------------------------------------------------------------------------

namespace Rule

/-- The anchors of the rule are the uses of exposed fields under a lock in the code of the methods.
-/
theorem anchors_locks {tree : Tree} (linked : tree.Linked)
    : Rule.publicFieldAccessedInSynchronizedContext.anchors tree
      = (tree.codeFrom tree.isMethodAt).filter tree.usesUnderLock := by
  have each (scope : Scope) (method : Subtree) (shown : tree.subtree? method.id = some method)
      (isMethod : method.kind = .method)
      : Rule.publicFieldAccessedInSynchronizedContext.checker.found { tree, scope } method { }
        = method.codeNodes.filter tree.usesUnderLock :=
    found_locks linked shown (Or.inl isMethod)
  rw [anchors_methods rfl each, Tree.codeFrom, List.filter_flatMap]
  refine List.flatMap_congr fun id _ => ?_
  cases tree.subtree? id <;> rfl

/-- The nodes reported are the uses of exposed fields under a lock, whether methods are apart or
not.
-/
theorem mem_anchors_locks {tree : Tree} (coherent : tree.Coherent) {id : NodeId}
    : id ∈ (Rule.publicFieldAccessedInSynchronizedContext.anchors tree).map Subtree.id
      ↔ tree.LockedAccess id := by
  rw [anchors_locks coherent.toLinked, List.mem_map]
  simp only [List.mem_filter, coherent.mem_codeFrom_iff]
  constructor
  · rintro ⟨reference, ⟨⟨shown, attached, _, method, isMethod, way⟩, uses⟩, rfl⟩
    obtain ⟨isReference, locked, exposed⟩ := (coherent.usesUnderLock_iff shown).mp uses
    refine ⟨attached, isReference, exposed, ⟨method, isMethod, ?_⟩, locked⟩
    rcases reflTransGen_iff_eq_or_transGen.mp way with same | below
    · rw [Tree.isMethodAt, ← same, isReference] at isMethod
      cases isMethod
    · exact (coherent.clearlyAbove_code_iff (Tree.isClassAt_of_isMethodAt isMethod)).mpr below
  · rintro ⟨attached, isReference, exposed, ⟨method, isMethod, clear⟩, locked⟩
    obtain ⟨reference, shown⟩ := coherent.subtree?_exists (Tree.lt_size_of_kind? isReference)
    obtain rfl := Tree.subtree?_id shown
    have below := (coherent.clearlyAbove_code_iff (Tree.isClassAt_of_isMethodAt isMethod)).mp clear
    have outside : reference.kind.isClass = false := by
      rw [Tree.kind_of_shown shown isReference]
      rfl
    exact ⟨reference, ⟨⟨shown, attached, outside, method, isMethod, below.to_reflTransGen⟩,
      (coherent.usesUnderLock_iff shown).mpr ⟨isReference, locked, exposed⟩⟩, rfl⟩

/-- Where no method lies in the code of another one, a run of the rule that nobody stops reports
each use of an exposed field under a lock once, and nothing else, whatever the options say.
-/
theorem lockedAccess_reportedOnce {tree : Tree} (coherent : tree.Coherent)
    (apart : tree.SetApart tree.isMethodAt) (options : PassOptions)
    {flag : Option CancelFlag} (idle : ∀ held ∈ flag, held = { }) (id : NodeId)
    : (tree.LockedAccess id
        → (Inspection.inspectTree Rule.publicFieldAccessedInSynchronizedContext tree options
            flag).reported.countP (·.anchor = id) = 1)
      ∧ (¬tree.LockedAccess id
        → (Inspection.inspectTree Rule.publicFieldAccessedInSynchronizedContext tree options
            flag).reported.countP (·.anchor = id) = 0) := by
  have once : ((publicFieldAccessedInSynchronizedContext.anchors tree).map Subtree.id).Nodup := by
    rw [anchors_locks coherent.toLinked]
    exact (List.filter_sublist.map Subtree.id).nodup (coherent.codeFrom_nodup apart)
  exact countP_reported _ coherent.toLinked once (fun _ => mem_anchors_locks coherent)
    options idle id

end Rule

/-- A statement that reads the counted field. -/
def readCount : Outline :=
  Outline.expressionStatement
    ((Outline.referenceExpression "count").resolvingTo (.labelled "count"))

/-- A file with a method that reads a field three times: in a synchronized statement, in a method of
an anonymous class there, and behind the statement.
-/
def countedReads : Document where
  root :=
    Outline.file.withChild <| (Outline.namedClass "Counter").append
      [(Outline.continuedField "count" "int").withLabel "count",
        (Outline.method "run").withChild <| Outline.codeBlock.append
          [(Outline.ofKind .synchronizedStatement).withChild <| Outline.codeBlock.append
              [readCount,
                Outline.expressionStatement <| (Outline.ofKind .newExpression).withChild <|
                  (Outline.anonymousClass "Task").withChild <|
                    (Outline.method "run").withChild (Outline.codeBlock.withChild readCount)],
            readCount]]

/-- The first of the three is reported once, and the others are not reported. -/
theorem countedReads_reported
    : (Tree.ofDocument countedReads).SetApart (Tree.ofDocument countedReads).isMethodAt
      ∧ (Inspection.inspectTree Rule.publicFieldAccessedInSynchronizedContext
          (Tree.ofDocument countedReads) { } (some { })).reported.countP (·.anchor = 8) = 1
      ∧ ∀ id ∈ [16, 18],
          (Inspection.inspectTree Rule.publicFieldAccessedInSynchronizedContext
            (Tree.ofDocument countedReads) { } (some { })).reported.countP (·.anchor = id) = 0 := by
  have coherent := Tree.ofDocument_coherent countedReads
  have apart
      : (Tree.ofDocument countedReads).SetApart (Tree.ofDocument countedReads).isMethodAt := by
    decide
  have idle : ∀ held ∈ some ({ } : CancelFlag), held = { } :=
    fun held same => (Option.some.inj same).symm
  have once := Rule.lockedAccess_reportedOnce coherent apart { } idle
  refine ⟨apart, (once 8).1 ⟨by decide, rfl, ?_, ⟨3, rfl, ?_⟩, ?_⟩, fun id among => (once id).2 ?_⟩
  · exact Tree.refersToExposed_iff.mpr (by decide +kernel)
  · have way : TransGen (Tree.ofDocument countedReads).CodeParent 3 8 :=
      .head (b := 4) ⟨rfl, rfl⟩ (.head (b := 5) ⟨rfl, rfl⟩ (.head (b := 6) ⟨rfl, rfl⟩
        (.head (b := 7) ⟨rfl, rfl⟩ (.single ⟨rfl, rfl⟩))))
    exact (coherent.clearlyAbove_code_iff rfl).mpr way
  · exact coherent.underLock_iff.mp (by decide)
  · intro access
    have locked := coherent.underLock_iff.mpr access.locked
    revert locked
    rcases List.mem_pair.mp among with rfl | rfl <;> decide

end TreeLint
