import TreeLint.Proofs.Rule.Reports

/-! Runs of one rule with different options. The options of a run reach its diagnostics only, so two
runs that are asked the same questions go the same way, and each diagnostic of the one is that of
the other with the severity and the fix told anew. This holds of every tree, also of one whose links
are broken, and whoever sets the flag.

Main result: two runs of a rule report the same problems in the same order.
-/

namespace TreeLint

-----------------------------------------------------------------------------------------
-- Diagnostics told under other options
-----------------------------------------------------------------------------------------

namespace Diagnostic

/-- The diagnostic of an inspection as it is told under other options. -/
def toldUnder (profile : Profile) (options : PassOptions) (diagnostic : Diagnostic) : Diagnostic :=
  { diagnostic with
    severity := options.severity.getD profile.severity
    fix :=
      if diagnostic.fixOnlyInteractive && !options.interactive then none else profile.fix }

/-- Two diagnostics tell of one problem: they differ at most in the severity and the fix. -/
structure SameProblem (first second : Diagnostic) : Prop where
  rule : first.rule = second.rule
  id : first.id = second.id
  anchor : first.anchor = second.anchor
  location : first.location = second.location
  message : first.message = second.message
  fixOnlyInteractive : first.fixOnlyInteractive = second.fixOnlyInteractive

/-- The fix is the same if it is not for interactive sessions alone, or if both sessions are. -/
theorem fix_toldUnder (profile : Profile) (first second : PassOptions) {diagnostic : Diagnostic}
    (differ : (diagnostic.toldUnder profile first).fix
      ≠ (diagnostic.toldUnder profile second).fix)
    : diagnostic.fixOnlyInteractive = true ∧ first.interactive ≠ second.interactive := by
  refine ⟨?_, fun same => differ (by simp only [toldUnder, same])⟩
  by_contra always
  rw [Bool.not_eq_true] at always
  exact differ (by simp only [toldUnder, always, Bool.false_and])

end Diagnostic

/-- A diagnostic is made for the options of its pass: made for other options, it is told anew. -/
theorem Profile.diagnose_options (profile : Profile) (context : PassContext)
    (options : PassOptions) (anchor : Subtree) (template : String)
    : profile.diagnose { context with options } anchor template
      = (profile.diagnose context anchor template).toldUnder profile options :=
  rfl

namespace PassState

/-- The pass with every diagnostic of it told under other options. -/
def toldUnder (profile : Profile) (options : PassOptions) (state : PassState) : PassState :=
  { state with reported := state.reported.map (·.toldUnder profile options) }

/-- Whether the pass goes on does not depend on what it reported. -/
theorem goesOn_toldUnder (profile : Profile) (options : PassOptions) (state : PassState)
    : (state.toldUnder profile options).goesOn
      = (state.goesOn.1, state.goesOn.2.toldUnder profile options) := by
  obtain ⟨reported, flag, breakdown⟩ := state
  cases breakdown <;> cases flag <;> rfl

theorem after_toldUnder (profile : Profile) (options : PassOptions) (earlier later : PassState)
    : (earlier.after later).toldUnder profile options
      = (earlier.toldUnder profile options).after (later.toldUnder profile options) := by
  simp only [after, toldUnder, List.map_append]

end PassState

-----------------------------------------------------------------------------------------
-- Walks of a rule
-----------------------------------------------------------------------------------------

namespace Checker

/-- The walk with every diagnostic of it told under other options. -/
def Progress.toldUnder (profile : Profile) (options : PassOptions) (progress : Progress)
    : Progress :=
  { progress with pass := progress.pass.toldUnder profile options }

/-- Reports under other options are the reports told anew, by induction on the anchors. -/
theorem report_options (checker : Checker) (context : PassContext) (options : PassOptions)
    (anchors : List Subtree) (state : PassState)
    : checker.report { context with options } anchors
        (state.toldUnder checker.profile options)
      = (checker.report context anchors state).toldUnder checker.profile options := by
  induction anchors generalizing state with
  | nil => rfl
  | cons anchor rest ih =>
      have reported (diagnostic : Diagnostic)
          : (state.toldUnder checker.profile options).report
              (diagnostic.toldUnder checker.profile options)
            = (state.report diagnostic).toldUnder checker.profile options := by
        simp only [PassState.report, PassState.toldUnder, List.map_append, List.map_cons,
          List.map_nil]
      simp only [report, List.foldl_cons, Profile.diagnose_options, reported]
      exact ih _

/-- Walking several nodes under other options is the walk told anew if each visit is, by induction
on the nodes.
-/
private theorem walk_options {checker : Checker} {context : PassContext} {options : PassOptions}
    {nodes : List Subtree}
    (each : ∀ node ∈ nodes, ∀ progress : Progress,
      (checker.visitor { context with options }).visit node
          (progress.toldUnder checker.profile options)
        = ((checker.visitor context).visit node progress).toldUnder checker.profile options)
    (progress : Progress)
    : (checker.visitor { context with options }).walk nodes
        (progress.toldUnder checker.profile options)
      = ((checker.visitor context).walk nodes progress).toldUnder checker.profile options := by
  induction nodes generalizing progress with
  | nil => rfl
  | cons node rest ih =>
      have asked : (progress.toldUnder checker.profile options).pass.goesOn
          = (progress.pass.goesOn.1,
            progress.pass.goesOn.2.toldUnder checker.profile options) :=
        progress.pass.goesOn_toldUnder checker.profile options
      rw [walk_cons, walk_cons, asked]
      split
      · have visited := each node List.mem_cons_self
          { progress with pass := progress.pass.goesOn.2 }
        have walked := ih (fun other later => each other (List.mem_cons_of_mem node later))
          ((checker.visitor context).visit node { progress with pass := progress.pass.goesOn.2 })
        rw [← walked, ← visited]
        rfl
      · rfl

/-- Visiting a node under other options is the visit told anew, by induction on the subtree. The
rule reacts to the tree and the scope, which are the same.
-/
theorem visit_options (checker : Checker) (context : PassContext) (options : PassOptions)
    (node : Subtree) (progress : Progress)
    : (checker.visitor { context with options }).visit node
        (progress.toldUnder checker.profile options)
      = ((checker.visitor context).visit node progress).toldUnder checker.profile options := by
  induction node using Subtree.induction generalizing progress with
  | step node ih =>
      have walked (state : Progress) :=
        walk_options (fun child member => ih child member) state
      have reacts : checker.reactionFor? { context with options } node.kind
          = checker.reactionFor? context node.kind := rfl
      rw [Visitor.visit_eq, Visitor.visit_eq, actionFor_visitor, actionFor_visitor, reacts]
      cases checker.reactionFor? context node.kind with
      | none => exact walked progress
      | some reaction =>
          simp only [Option.map_some, Option.getD_some, act, Progress.toldUnder, ← report_options]
          cases (reaction progress.around node).below with
          | none => rfl
          | some below =>
              have inner := congrArg Progress.pass (walked { progress with around := below })
              simp only [Progress.toldUnder] at inner
              simp only [inner]

/-- A run under other options is the run told anew. -/
theorem run_options (checker : Checker) (context : PassContext) (options : PassOptions)
    (root : Subtree) (flag : Option CancelFlag)
    : checker.run { context with options } root flag
      = (checker.run context root flag).toldUnder checker.profile options :=
  congrArg Progress.pass (checker.visit_options context options root { pass := { flag } })

end Checker

-----------------------------------------------------------------------------------------
-- Runs over trees
-----------------------------------------------------------------------------------------

namespace Rule

/-- A pass under other options is the pass told anew, also where it breaks down. -/
theorem inspectScope_options (rule : Rule) (context : PassContext) (options : PassOptions)
    (flag : Option CancelFlag)
    : Inspection.inspectScope rule { context with options } flag
      = (Inspection.inspectScope rule context flag).toldUnder rule.profile options := by
  simp only [Inspection.inspectScope]
  split
  · split
    · next root _ => exact rule.checker.run_options context options root flag
    · rfl
  · rfl

/-- Passes under other options are the passes told anew, by induction on the scopes. -/
theorem inspectScopes_options (rule : Rule) (tree : Tree) (first second : PassOptions)
    (scopes : List Scope) (flag : Option CancelFlag)
    : Inspection.inspectScopes rule tree second scopes flag
      = (Inspection.inspectScopes rule tree first scopes flag).toldUnder rule.profile second := by
  induction scopes generalizing flag with
  | nil => rfl
  | cons scope rest ih =>
      have pass := rule.inspectScope_options { tree, scope, options := first } second flag
      rw [Inspection.inspectScopes, Inspection.inspectScopes, pass, ih,
        apply_ite (PassState.toldUnder rule.profile second), PassState.after_toldUnder]
      rfl

/-- A run over a tree under other options is the run told anew. -/
theorem inspectTree_options (rule : Rule) (tree : Tree) (first second : PassOptions)
    (flag : Option CancelFlag)
    : Inspection.inspectTree rule tree second flag
      = (Inspection.inspectTree rule tree first flag).toldUnder rule.profile second :=
  rule.inspectScopes_options tree first second _ flag

/-- Whatever the options of two runs of a rule over a tree, the runs report the same problems in the
same order. Each tells its own severity, or else that of the rule, and they offer different fixes
only for what is fixed in interactive sessions alone. The runs also ask the same questions, and end
alike.
-/
theorem inspectTree_sameProblems (rule : Rule) (tree : Tree) (first second : PassOptions)
    (flag : Option CancelFlag)
    : let one := Inspection.inspectTree rule tree first flag
      let other := Inspection.inspectTree rule tree second flag
      List.Forall₂
          (fun here there =>
            here.SameProblem there
            ∧ (here.fix ≠ there.fix → here.fixOnlyInteractive = true)
            ∧ here.severity = first.severity.getD rule.profile.severity
            ∧ there.severity = second.severity.getD rule.profile.severity)
          one.reported other.reported
        ∧ one.flag = other.flag
        ∧ one.breakdown = other.breakdown := by
  intro one other
  have told (options : PassOptions) := rule.inspectTree_options tree { } options flag
  refine ⟨?_, ?_, ?_⟩
  · simp only [one, other, told first, told second, PassState.toldUnder,
      List.forall₂_map_left_iff, List.forall₂_map_right_iff, List.forall₂_same]
    intro diagnostic _
    refine ⟨⟨rfl, rfl, rfl, rfl, rfl, rfl⟩, fun differ => ?_, rfl, rfl⟩
    exact (Diagnostic.fix_toldUnder rule.profile first second differ).1
  · simp only [one, other, told first, told second, PassState.toldUnder]
  · simp only [one, other, told first, told second, PassState.toldUnder]

end Rule

end TreeLint
