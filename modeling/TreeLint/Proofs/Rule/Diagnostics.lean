import TreeLint.Proofs.Fix.Hoisting
import TreeLint.Proofs.Fix.Replacements
import TreeLint.Proofs.Rule.Cancellation
import TreeLint.Proofs.Rule.Coverage
import TreeLint.Proofs.Tree.Nearest

/-! What a diagnostic of a run promises, whoever stops the run and whenever: the node has a
problem of the rule, and the fix is that of the rule. The fix of a pointless expression puts what is
left of it in its place, and the fix of a chain takes the receiver of the call out of the nearest
statement of a block around the call.
-/

namespace TreeLint

open Relation

namespace Rule

/-- What a run of a rule about code reports has a problem, also where the run is stopped. -/
theorem hasProblem_of_reported {rule : Rule} (code : rule.LooksAtCode) {tree : Tree}
    (coherent : tree.Coherent) {options : PassOptions} {flag : Option CancelFlag}
    {diagnostic : Diagnostic}
    (reported : diagnostic ∈ (Inspection.inspectTree rule tree options flag).reported)
    : tree.HasProblem rule diagnostic.anchor := by
  have undisturbed := rule.reported_undisturbed coherent.toLinked reported
  have listed := List.mem_map_of_mem (f := (·.anchor)) undisturbed
  rw [rule.inspectTree_anchors coherent.toLinked options (by simp)] at listed
  exact (mem_anchors_code code coherent).mp listed

/-- A diagnostic whose fix is applied, to whichever tree, carries the fix of its rule, also where
the run that reports it is stopped.
-/
theorem applyFix_reported {rule : Rule} {tree before after : Tree} (linked : tree.Linked)
    {options : PassOptions} {flag : Option CancelFlag} {diagnostic : Diagnostic}
    (reported : diagnostic ∈ (Inspection.inspectTree rule tree options flag).reported)
    (succeeded : diagnostic.applyFix.apply before = (.ok (), after))
    : ∃ fix,
        rule.profile.fix = some fix
        ∧ (fix.applyAt diagnostic.anchor).apply before = (.ok (), after) := by
  have undisturbed := rule.reported_undisturbed linked reported
  rw [Diagnostic.applyFix] at succeeded
  cases offered : diagnostic.fix with
  | none =>
      rw [offered] at succeeded
      exact absurd succeeded Edit.failed_ne_succeeded
  | some fix =>
      rw [offered] at succeeded
      exact ⟨fix, rule.fix_of_reported linked (by simp) undisturbed offered, succeeded⟩

/-- An expression that is reported as pointless is a binary one, and the fix puts what is left of it in
its place.
-/
theorem replacement_reported {tree : Tree} (coherent : tree.Coherent) {options : PassOptions}
    {flag : Option CancelFlag} {diagnostic : Diagnostic}
    (reported
      : diagnostic
        ∈ (Inspection.inspectTree pointlessBitwiseExpression tree options flag).reported)
    : ∃ expression operation,
        tree.subtree? diagnostic.anchor = some expression
        ∧ expression.kind = .binaryExpression
        ∧ BitwiseOperation.pointless? expression = some operation
        ∧ ∀ after,
            diagnostic.applyFix.apply tree = (.ok (), after)
            → after = tree.fragment diagnostic.anchor operation.replacement := by
  obtain ⟨_, _, expression, shown, isBinary, operation, isOperation, pointless⟩ :=
    hasProblem_of_reported .bitwise coherent reported
  have isPointless : BitwiseOperation.pointless? expression = some operation :=
    Option.filter_eq_some_iff.mpr ⟨isOperation, pointless⟩
  refine ⟨expression, operation, shown, isBinary, isPointless, fun after succeeded => ?_⟩
  obtain ⟨fix, isFix, applied⟩ := applyFix_reported coherent.toLinked reported succeeded
  cases isFix
  obtain ⟨found, text, isFound, isText, rfl⟩ := Fix.replaceAt_succeeded applied
  cases shown.symm.trans isFound
  rw [isPointless, Option.map_some] at isText
  rw [Option.some.inj isText]

/-- The fix of a reported chain hoists the receiver of the call out of the nearest statement of a
block around the call.
-/
theorem chain_hoisted {ignoreFields : Bool} {tree after : Tree} (reachable : tree.Reachable)
    {options : PassOptions} {flag : Option CancelFlag} {diagnostic : Diagnostic}
    (reported
      : diagnostic
        ∈ (Inspection.inspectTree (chainedMethodCall ignoreFields) tree options flag).reported)
    (succeeded : diagnostic.applyFix.apply tree = (.ok (), after))
    : ∃ receiver statement block,
        tree.kind? diagnostic.anchor = some .methodCall
        ∧ tree.Nearest (Fix.isBlockStatement tree) statement diagnostic.anchor
        ∧ tree.parent? statement = some block
        ∧ tree.Introduces diagnostic.anchor receiver.id block
        ∧ tree.Hoisted diagnostic.anchor receiver statement block
            (Fix.variableName receiver.stripParentheses) (receiver.typeName?.getD "var") after
        ∧ after.Coherent := by
  have coherent := reachable.coherent
  have linked := coherent.toLinked
  obtain ⟨attached, _, call, callShown, isCall, _⟩ :=
    hasProblem_of_reported (.chains ignoreFields) coherent reported
  obtain ⟨fix, isFix, applied⟩ := applyFix_reported linked reported succeeded
  cases isFix
  have afterCoherent := Fix.coherent_of_applyAt coherent applied
  obtain ⟨receiver, statement, block, isReceiver, nearest, inBlock, introduces, rfl⟩ :=
    Fix.introduceVariable_moves coherent applied
  obtain ⟨call, shown, found⟩ := Option.bind_eq_some_iff.mp isReceiver
  cases callShown.symm.trans shown
  have callId := Tree.subtree?_id shown
  rw [← callId] at shown
  have receiverShown := (Tree.subtree?_of_mem_children shown (List.mem_of_find?_eq_some found)).1
  have kind := (Tree.kind?_of_shown shown).trans (congrArg some isCall.1)
  rw [callId] at kind
  exact ⟨receiver, statement, block, kind, linked.nearest_of_find? nearest, inBlock, introduces,
    introduces.hoisted coherent receiverShown inBlock (coherent.attached_iff.mpr attached)
      afterCoherent, afterCoherent⟩

end Rule

/-- What is listed with an anchor and a fix is a diagnostic with these. -/
theorem Diagnostic.exists_listed {diagnostics : List Diagnostic} {anchor : NodeId}
    {fix : Option Fix}
    (listed
      : (anchor, fix) ∈ diagnostics.map fun diagnostic => (diagnostic.anchor, diagnostic.fix))
    : ∃ diagnostic ∈ diagnostics, diagnostic.anchor = anchor ∧ diagnostic.fix = fix := by
  obtain ⟨diagnostic, member, same⟩ := List.mem_map.mp listed
  exact ⟨diagnostic, member, Prod.mk.inj same⟩

/-- What the rule about chains reports about a file in an interactive session, fields included. -/
def reportedChains (document : Document) : List Diagnostic :=
  (Inspection.inspectTree (Rule.chainedMethodCall false) (.ofDocument document)
    { interactive := true } none).reported

/-- A chain of a file that is reported with the fix is fixed by introducing a variable, in whichever
tree.
-/
theorem reportedChains_offered {document : Document} {anchor : NodeId}
    (offers
      : (anchor, some Fix.introduceVariable)
        ∈ (reportedChains document).map fun diagnostic => (diagnostic.anchor, diagnostic.fix))
    : ∃ diagnostic ∈ reportedChains document,
        diagnostic.anchor = anchor
        ∧ diagnostic.applyFix = Fix.introduceVariable.applyAt anchor := by
  obtain ⟨diagnostic, reported, isAnchor, fix⟩ := Diagnostic.exists_listed offers
  refine ⟨diagnostic, reported, isAnchor, ?_⟩
  rw [Diagnostic.applyFix, fix, isAnchor]

/-- Where a chain of a file is reported with a fix that works, the fix can be applied. -/
theorem reportedChains_applied {document : Document} {anchor : NodeId}
    (offers
      : (anchor, some Fix.introduceVariable)
        ∈ (reportedChains document).map fun diagnostic => (diagnostic.anchor, diagnostic.fix))
    (works
      : ((Fix.introduceVariable.applyAt anchor).apply (Tree.ofDocument document)).1 = .ok ())
    : ∃ diagnostic ∈ reportedChains document,
        diagnostic.anchor = anchor
        ∧ diagnostic.applyFix.apply (Tree.ofDocument document)
          = (.ok (), ((Fix.introduceVariable.applyAt anchor).apply (.ofDocument document)).2) := by
  obtain ⟨diagnostic, reported, isAnchor, applies⟩ := reportedChains_offered offers
  refine ⟨diagnostic, reported, isAnchor, ?_⟩
  rw [applies]
  exact Prod.ext works rfl

end TreeLint
