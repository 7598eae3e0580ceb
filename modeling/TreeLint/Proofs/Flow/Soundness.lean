import TreeLint.Outline.Builder
import TreeLint.Proofs.Flow.Completion
import TreeLint.Proofs.Rule.Reports

/-! What follows for the rules that ask whether a statement completes. The walk over the shapes is
right about a statement and about everything below it exactly if it goes wrong at none of the
nodes, and then the loops that are reported are left by throwing alone.
-/

namespace TreeLint

open Subtree

-----------------------------------------------------------------------------------------
-- Reported loops
-----------------------------------------------------------------------------------------

/-- The rule about loops skips classes and looks at loops behind what is inside them. -/
theorem Checker.reactionFor?_infiniteLoop (context : PassContext) (kind : NodeKind)
    : Checker.infiniteLoopStatement.reactionFor? context kind
      = if kind.isClass then
          some .skip
        else if kind.isLoop then
          some (.walk (selfIf fun loop => !loop.mayComplete && !loop.hasReturn))
        else
          none := by
  cases kind <;> rfl

/-- The rule about loops reports loops that the walk denies and that have no `return`. -/
theorem Checker.mayReport_infiniteLoop {context : PassContext} {node : Subtree}
    {diagnostic : Diagnostic}
    (reports : Checker.infiniteLoopStatement.MayReport context node diagnostic)
    : diagnostic.anchor = node.id
      ∧ node.kind.isLoop
      ∧ node.mayComplete = false
      ∧ node.hasReturn = false := by
  obtain ⟨reaction, around, anchor, reacts, reported, rfl⟩ := reports
  rw [Checker.reactionFor?_infiniteLoop] at reacts
  split at reacts
  · cases reacts
    cases reported
  · split at reacts
    · next loop =>
        cases reacts
        simp only [Reaction.walk, Step.walk, selfIf] at reported
        split at reported
        · next denied =>
            cases List.mem_singleton.mp reported
            simp only [Bool.and_eq_true, Bool.not_eq_true'] at denied
            exact ⟨rfl, loop, denied.1, denied.2⟩
        · cases reported
    · cases reacts

-----------------------------------------------------------------------------------------
-- Soundness and its limits
-----------------------------------------------------------------------------------------

/-- Without facts of the host, the walk lets all complete that completes in some execution exactly
if it goes wrong at no node. Then whatever loop is reported is left by throwing alone, and so is the
body of a method that must throw.
-/
theorem mayComplete_sound_iff {statement : Subtree} (plain : statement.WithoutFlowFacts)
    (context : PassContext) (flag : Option CancelFlag)
    : ((∀ node ∈ statement.nodes, Runs (.node node) .normal → node.mayComplete)
        ↔ ∀ node ∈ statement.nodes, ¬node.Misjudged)
      ∧ (∀ diagnostic ∈
            (Inspection.inspectScope Rule.infiniteLoopStatement context flag).reported,
          ∃ loop,
            context.tree.subtree? diagnostic.anchor = some loop
            ∧ loop.kind.isLoop
            ∧ (loop.WithoutFlowFacts
                → (∀ node ∈ loop.nodes, ¬node.Misjudged)
                → ∀ outcome, Runs (.node loop) outcome → outcome = .thrown))
      ∧ ((∀ node ∈ statement.nodes, ¬node.Misjudged)
          → statement.methodMustThrow
          → ∃ body,
              statement.body? = some body
              ∧ ¬Runs (.node body) .normal
              ∧ (Runs (.node body) .returned → body.kind = .returnStatement)) := by
  refine ⟨⟨fun sound node member misjudged => ?_, fun clear node member => ?_⟩,
    fun diagnostic member => ?_, body_of_methodMustThrow plain⟩
  · obtain ⟨runs, denied⟩ := misjudged.completes
    have completes := sound node member runs
    rw [denied] at completes
    cases completes
  · refine mayComplete_of_runs (fun inner inside => plain inner (mem_nodes_trans member inside)) ?_
    exact fun inner inside => clear inner (mem_nodes_trans member inside)
  · obtain ⟨loop, shown, reports⟩ := Rule.inspectScope_provenance member
    obtain ⟨anchor, isLoop, denied, noReturn⟩ := Checker.mayReport_infiniteLoop reports
    refine ⟨loop, by rw [anchor, shown], isLoop, fun plain clear outcome run => ?_⟩
    exact thrown_of_loop plain clear isLoop denied noReturn run

/-- The walk can only go wrong at a `do` loop or an `if`. -/
theorem not_misjudged_of_kind {node : Subtree} (notDo : node.kind ≠ .doWhileStatement)
    (notIf : node.kind ≠ .ifStatement)
    : ¬node.Misjudged := by
  rintro (missed | mistaken)
  · exact notDo missed.kind
  · exact notIf mistaken.kind

/-- A file with a class with a method with one statement, which has the number four. -/
def methodDocument (statement : Subtree) : Document where
  root :=
    (Outline.ofKind .file).withChild
      ((Outline.ofKind .namedClass).withChild
        ((Outline.ofKind .method).withChild
          (((Outline.ofKind .codeBlock).withRole .body).withChild statement.outline)))

/-- An empty loop whose condition is the literal `true`. -/
def endlessLoop : Subtree :=
  .mk 4 { kind := .whileStatement }
    [.mk 5 { kind := .literal, text := some "true", role := .condition } [],
      .mk 6 { kind := .codeBlock, role := .body } []]

/-- The empty endless loop is reported, and only a throw leaves it. -/
theorem endlessLoop_thrown
    : ∃ diagnostic ∈
        (Inspection.inspectScope Rule.infiniteLoopStatement
          { tree := Tree.ofDocument (methodDocument endlessLoop), scope := ⟨.methodScope, 2⟩ }
          none).reported,
        diagnostic.anchor = 4
        ∧ ∀ outcome, Runs (.node endlessLoop) outcome → outcome = .thrown := by
  let context : PassContext :=
    { tree := Tree.ofDocument (methodDocument endlessLoop), scope := ⟨.methodScope, 2⟩ }
  let reported := (Inspection.inspectScope Rule.infiniteLoopStatement context none).reported
  have anchors : reported.map (·.anchor) = [4] := rfl
  obtain ⟨diagnostic, member, anchor⟩ : ∃ diagnostic ∈ reported, diagnostic.anchor = 4 := by
    rw [← List.mem_map, anchors]
    exact List.mem_singleton.mpr rfl
  refine ⟨diagnostic, member, anchor, ?_⟩
  have plain : endlessLoop.WithoutFlowFacts := by
    unfold WithoutFlowFacts
    decide
  obtain ⟨loop, shown, _, thrown⟩ :=
    (mayComplete_sound_iff plain context none).2.1 diagnostic member
  have same : context.tree.subtree? 4 = some endlessLoop := rfl
  rw [anchor, same] at shown
  cases shown
  have kinds : ∀ node ∈ endlessLoop.nodes,
      node.kind ≠ .doWhileStatement ∧ node.kind ≠ .ifStatement := by
    decide
  exact thrown plain fun node inside =>
    not_misjudged_of_kind (kinds node inside).1 (kinds node inside).2

/-- A loop that goes on to its condition at once: `do { continue; } while (flag);`. -/
def skippingLoop : Subtree :=
  .mk 4 { kind := .doWhileStatement }
    [.mk 5 { kind := .codeBlock, role := .body } [.mk 6 { kind := .continueStatement } []],
      .mk 7 { kind := .referenceExpression, name := some "flag", role := .condition } []]

/-- The skipping loop completes as soon as its condition fails, and yet it is reported as one that
only a throw leaves, and a method that consists of it as one that must throw.
-/
theorem skippingLoop_misjudged
    : ∃ method body,
        (Tree.ofDocument (methodDocument skippingLoop)).subtree? 2 = some method
        ∧ method.body? = some body
        ∧ body.children = [skippingLoop]
        ∧ method.WithoutFlowFacts
        ∧ Runs (.node skippingLoop) .normal
        ∧ Runs (.node body) .normal
        ∧ skippingLoop.mayComplete = false
        ∧ method.methodMustThrow
        ∧ (Inspection.inspectTree Rule.infiniteLoopStatement
            (Tree.ofDocument (methodDocument skippingLoop)) { } none).reported.map (·.anchor)
          = [skippingLoop.id] := by
  let body : Subtree := .mk 3 { kind := .codeBlock, role := .body } [skippingLoop]
  let method : Subtree := .mk 2 { kind := .method } [body]
  have plain : method.WithoutFlowFacts := by
    unfold WithoutFlowFacts
    decide
  have iteration : Runs (.row skippingLoop.body?.toList) .continued :=
    .abrupt (.enters (.block (Or.inl rfl)) (.abrupt (.jumps rfl) (by decide))) (by decide)
  have fails : MayFail (skippingLoop.childWithRole? .condition) := by
    exact ⟨_, rfl, by decide⟩
  have loop : Runs (.node skippingLoop) .normal := .endsBehind rfl iteration rfl fails
  have block : Runs (.node body) .normal := .enters (.block (Or.inl rfl)) (.next loop .done)
  exact ⟨method, body, rfl, rfl, rfl, plain, loop, block, rfl, rfl, rfl⟩

/-- A statement whose first branch is empty: `if (flag) ; else { return; }`. -/
def emptyBranch : Subtree :=
  .mk 4 { kind := .ifStatement }
    [.mk 5 { kind := .referenceExpression, name := some "flag", role := .condition } [],
      .mk 6 { kind := .codeBlock, role := .otherwise } [.mk 7 { kind := .returnStatement } []]]

/-- The empty branch does nothing and completes, but the walk looks into the other branch twice. -/
theorem emptyBranch_mistaken : emptyBranch.MistakesBranch where
  kind := rfl
  mistaken same := by cases same
  completes := .done
  denied := rfl

end TreeLint
