import TreeLint.Proofs.Tree.Subtrees
import TreeLint.Rule.Basic

/-! Where the diagnostics of a rule come from. A pass starts with none, and each that it adds is
for an anchor that the rule reports at a node below the root of the scope.
-/

namespace TreeLint

namespace Checker

/-- What the rule does at a node of a kind, if it does anything beyond walking on. -/
def reactionFor? (checker : Checker) (context : PassContext) (kind : NodeKind)
    : Option Reaction :=
  (Callback.chain kind).findSome? (checker.reaction? context.tree context.scope)

/-- What is related at every callback is related at every kind: rules say in both cases for the same
callbacks what they do.
-/
theorem reactionFor?_rel {related : Reaction → Reaction → Prop} {checker : Checker}
    {first second : PassContext}
    (each
      : ∀ callback,
          Option.Rel related (checker.reaction? first.tree first.scope callback)
            (checker.reaction? second.tree second.scope callback))
    (kind : NodeKind)
    : Option.Rel related (checker.reactionFor? first kind) (checker.reactionFor? second kind) := by
  rw [reactionFor?, reactionFor?]
  induction Callback.chain kind with
  | nil => exact .none
  | cons callback rest ih =>
      have here := each callback
      rw [List.findSome?_cons, List.findSome?_cons]
      revert here
      generalize checker.reaction? first.tree first.scope callback = one
      generalize checker.reaction? second.tree second.scope callback = other
      rintro (both | _)
      · exact .some both
      · exact ih

/-- A static import is written three levels below its file. -/
theorem children_of_mem_staticImports {file anchor : Subtree} (member : anchor ∈ staticImports file)
    : ∃ imports ∈ file.children, ∃ static ∈ imports.children, anchor ∈ static.children := by
  obtain ⟨imports, isList, inside⟩ := List.mem_flatMap.mp member
  obtain ⟨static, isStatic, first⟩ := List.mem_filterMap.mp inside
  exact ⟨imports, List.mem_of_mem_filter isList, static, List.mem_of_mem_filter isStatic,
    List.mem_of_mem_filter (List.mem_of_head? first)⟩

/-- The diagnostic is one for an anchor that the rule may report at the node. -/
def MayReport (checker : Checker) (context : PassContext) (node : Subtree)
    (diagnostic : Diagnostic)
    : Prop :=
  ∃ reaction around anchor,
    checker.reactionFor? context node.kind = some reaction
    ∧ anchor ∈ (reaction around node).reports
    ∧ diagnostic
      = checker.profile.diagnose context anchor (checker.message context.tree anchor)

/-- What happens at a node is what the rule says there, or else the children are walked. -/
theorem actionFor_visitor (checker : Checker) (context : PassContext) (kind : NodeKind)
    : (checker.visitor context).actionFor kind
      = ((checker.reactionFor? context kind).map (checker.act context)).getD
          fun _ walk => walk := by
  rw [Visitor.actionFor, reactionFor?, List.map_findSome?]
  rfl

/-- Asking whether to go on reports nothing. -/
theorem reported_goesOn (state : PassState) : state.goesOn.2.reported = state.reported := by
  rw [PassState.goesOn]
  split <;> rfl

/-- Walking further children visits the first of them, unless the pass does not go on. -/
theorem walk_cons (checker : Checker) (context : PassContext) (node : Subtree)
    (rest : List Subtree) (progress : Progress)
    : (checker.visitor context).walk (node :: rest) progress
      = if progress.pass.goesOn.1 then
          (checker.visitor context).walk rest
            ((checker.visitor context).visit node { progress with pass := progress.pass.goesOn.2 })
        else
          { progress with pass := progress.pass.goesOn.2 } := by
  have asked : (checker.visitor context).goesOn progress
      = (progress.pass.goesOn.1, { progress with pass := progress.pass.goesOn.2 }) := rfl
  rw [Visitor.walk, asked]
  cases progress.pass.goesOn.1 <;> rfl

/-- Reporting keeps what each single report keeps, by induction on the anchors. -/
theorem report_keeps {checker : Checker} {context : PassContext} {holds : PassState → Prop}
    {anchors : List Subtree}
    (each : ∀ anchor ∈ anchors, ∀ state,
      holds state
      → holds
          (state.report
            (checker.profile.diagnose context anchor (checker.message context.tree anchor))))
    {state : PassState} (before : holds state)
    : holds (checker.report context anchors state) := by
  induction anchors generalizing state with
  | nil => exact before
  | cons anchor rest ih =>
      exact ih (fun other later => each other (List.mem_cons_of_mem anchor later))
        (each anchor List.mem_cons_self state before)

/-- Walking the children keeps what the visits and the questions keep, by induction on them. -/
theorem walk_keeps {checker : Checker} {context : PassContext} {holds : PassState → Prop}
    (asked : ∀ state, holds state → holds state.goesOn.2) {nodes : List Subtree}
    (each : ∀ node ∈ nodes, ∀ progress : Progress,
      holds progress.pass → holds ((checker.visitor context).visit node progress).pass)
    {progress : Progress} (before : holds progress.pass)
    : holds ((checker.visitor context).walk nodes progress).pass := by
  induction nodes generalizing progress with
  | nil => exact before
  | cons node rest ih =>
      rw [walk_cons]
      split
      · exact ih (fun other later => each other (List.mem_cons_of_mem node later))
          (each node List.mem_cons_self _ (asked progress.pass before))
      · exact asked progress.pass before

/-- What the questions keep, and the reports that the rule may make at the nodes of a subtree, the
visit of the subtree keeps, by induction on the subtree.
-/
theorem visit_keeps {checker : Checker} {context : PassContext} {holds : PassState → Prop}
    (asked : ∀ state, holds state → holds state.goesOn.2) {node : Subtree}
    (reported : ∀ inner ∈ node.nodes, ∀ diagnostic,
      checker.MayReport context inner diagnostic
      → ∀ state, holds state → holds (state.report diagnostic))
    {progress : Progress} (before : holds progress.pass)
    : holds ((checker.visitor context).visit node progress).pass := by
  induction node using Subtree.induction generalizing progress with
  | step node ih =>
      have walked {state : Progress} (start : holds state.pass)
          : holds ((checker.visitor context).walk node.children state).pass := by
        refine walk_keeps asked (fun child member progress => ?_) start
        exact ih child member fun inner inside =>
          reported inner (Subtree.mem_nodes_iff.mpr (Or.inr ⟨child, member, inside⟩))
      rw [Visitor.visit_eq, actionFor_visitor]
      cases reacts : checker.reactionFor? context node.kind with
      | none => exact walked before
      | some reaction =>
          refine report_keeps (fun anchor member => ?_) ?_
          · exact reported node (Subtree.self_mem_nodes node) _
              ⟨reaction, progress.around, anchor, reacts, member, rfl⟩
          · cases (reaction progress.around node).below with
            | none => exact before
            | some around => exact walked before

/-- A pass keeps what the questions keep, and the reports that the rule may make in the scope. -/
theorem run_keeps (checker : Checker) (context : PassContext) (holds : PassState → Prop)
    (asked : ∀ state, holds state → holds state.goesOn.2) {root : Subtree}
    (reported : ∀ inner ∈ root.nodes, ∀ diagnostic,
      checker.MayReport context inner diagnostic
      → ∀ state, holds state → holds (state.report diagnostic))
    {flag : Option CancelFlag} (before : holds { flag })
    : holds (checker.run context root flag) :=
  visit_keeps asked reported before

/-- A pass reports only what the rule may report at a node of the scope. -/
theorem run_provenance {checker : Checker} {context : PassContext} {root : Subtree}
    {flag : Option CancelFlag} {diagnostic : Diagnostic}
    (member : diagnostic ∈ (checker.run context root flag).reported)
    : ∃ inner ∈ root.nodes, checker.MayReport context inner diagnostic := by
  refine checker.run_keeps context
    (fun state => ∀ found ∈ state.reported,
      ∃ inner ∈ root.nodes, checker.MayReport context inner found)
    ?_ ?_ (by simp) diagnostic member
  · intro state before found reported
    exact before found (reported_goesOn state ▸ reported)
  · intro inner inside other reports state before found among
    rcases List.mem_append.mp among with earlier | new
    · exact before found earlier
    · cases List.mem_singleton.mp new
      exact ⟨inner, inside, reports⟩

/-- A pass with a flag that nobody sets leaves the flag so and does not break down. -/
theorem run_calm (checker : Checker) (context : PassContext) (root : Subtree)
    : (checker.run context root (some { })).flag = some { }
      ∧ (checker.run context root (some { })).breakdown = none := by
  refine checker.run_keeps context
    (fun state => state.flag = some { } ∧ state.breakdown = none) ?_ ?_ ⟨rfl, rfl⟩
  · intro state ⟨flag, whole⟩
    obtain ⟨reported, _, _⟩ := state
    cases flag
    cases whole
    exact ⟨rfl, rfl⟩
  · exact fun _ _ _ _ _ calm => calm

end Checker

/-- A rule reports about a scope only what it may report at a node of the subtree of the scope. -/
theorem Rule.inspectScope_provenance {rule : Rule} {context : PassContext}
    {flag : Option CancelFlag} {diagnostic : Diagnostic}
    (member : diagnostic ∈ (Inspection.inspectScope rule context flag).reported)
    : ∃ inner,
        context.tree.subtree? inner.id = some inner
        ∧ rule.checker.MayReport context inner diagnostic := by
  rw [Inspection.inspectScope] at member
  split at member
  · split at member
    · next root shown =>
        obtain ⟨inner, inside, reports⟩ := Checker.run_provenance member
        rw [← Tree.subtree?_id shown] at shown
        exact ⟨inner, Tree.subtree?_of_mem_nodes shown inside, reports⟩
    · cases member
  · cases member

end TreeLint
