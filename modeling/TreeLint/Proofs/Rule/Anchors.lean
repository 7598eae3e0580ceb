import TreeLint.Proofs.Rule.Reports
import TreeLint.Proofs.Tree.Code

/-! The nodes that a rule reports, as a list. A run that nobody stops makes one diagnostic for each
of them in order, whatever its options, so what holds of the reports is read off the list.
-/

namespace TreeLint

-----------------------------------------------------------------------------------------
-- The anchors of a walk
-----------------------------------------------------------------------------------------

/-- The pass goes on whenever it is asked: it did not break down, and nobody sets its flag. -/
structure PassState.Calm (state : PassState) : Prop where
  whole : state.breakdown = none
  idle : ∀ held ∈ state.flag, held = { }

/-- A calm pass goes on and is left as it was, by cases on whether there is a flag. -/
theorem PassState.Calm.goesOn {state : PassState} (calm : state.Calm)
    : state.goesOn = (true, state) := by
  obtain ⟨reported, flag, breakdown⟩ := state
  obtain ⟨rfl, idle⟩ := calm
  cases flag with
  | none => rfl
  | some held =>
      cases idle held rfl
      rfl

namespace Checker

/-- What the rule does at a node. Where it has nothing to say, the children are walked. -/
def stepAt (checker : Checker) (context : PassContext) (around : Surroundings) (node : Subtree)
    : Step :=
  ((checker.reactionFor? context node.kind).map fun reaction => reaction around node).getD
    (.walk around [])

/-- The nodes that a walk reports if it goes on at every child, in order. -/
def found (checker : Checker) (context : PassContext) (node : Subtree)
    : Surroundings → List Subtree :=
  node.recurse fun node children around =>
    let step := checker.stepAt context around node
    (step.below.elim [] fun around => children.flatMap fun (_, inner) => inner around)
      ++ step.reports

/-- A walk reports what it finds below the node where it walks the children, and then what the
rule reports at the node.
-/
theorem found_eq (checker : Checker) (context : PassContext) (node : Subtree)
    (around : Surroundings)
    : checker.found context node around
      = ((checker.stepAt context around node).below.elim [] fun below =>
          node.children.flatMap fun child => checker.found context child below)
        ++ (checker.stepAt context around node).reports := by
  rw [found, Subtree.recurse_eq]
  simp only [List.flatMap_map]
  rfl

/-- Reporting in two goes is reporting at once. -/
theorem report_append (checker : Checker) (context : PassContext) (first second : List Subtree)
    (state : PassState)
    : checker.report context (first ++ second) state
      = checker.report context second (checker.report context first state) :=
  List.foldl_append

/-- Reporting adds a diagnostic for each anchor and changes nothing else, by induction on them. -/
theorem report_eq (checker : Checker) (context : PassContext) (anchors : List Subtree)
    (state : PassState)
    : checker.report context anchors state
      = { state with
          reported := state.reported ++ anchors.map fun anchor =>
            checker.profile.diagnose context anchor (checker.message context.tree anchor) } := by
  induction anchors generalizing state with
  | nil => simp [report]
  | cons anchor rest ih =>
      have later := ih (state.report
        (checker.profile.diagnose context anchor (checker.message context.tree anchor)))
      rw [List.map_cons, List.append_cons]
      exact later

/-- Reporting leaves a calm pass calm. -/
theorem report_calm (checker : Checker) (context : PassContext) (anchors : List Subtree)
    {state : PassState} (calm : state.Calm)
    : (checker.report context anchors state).Calm := by
  rw [report_eq]
  exact ⟨calm.whole, calm.idle⟩

/-- A calm walk of several nodes reports what each of them does when it is visited, by induction on
the nodes.
-/
private theorem walk_calm {checker : Checker} {context : PassContext} {nodes : List Subtree}
    (each : ∀ node ∈ nodes, ∀ progress : Progress,
      progress.pass.Calm
      → (checker.visitor context).visit node progress
        = { progress with
            pass := checker.report context (checker.found context node progress.around)
              progress.pass })
    {progress : Progress} (calm : progress.pass.Calm)
    : (checker.visitor context).walk nodes progress
      = { progress with
          pass := checker.report context
            (nodes.flatMap fun node => checker.found context node progress.around)
            progress.pass } := by
  induction nodes generalizing progress with
  | nil => rfl
  | cons node rest ih =>
      rw [walk_cons, calm.goesOn, if_pos rfl, each node List.mem_cons_self progress calm,
        ih (fun other later => each other (List.mem_cons_of_mem node later))
          (checker.report_calm context _ calm),
        List.flatMap_cons, report_append]

/-- A calm visit of a node reports what the walk finds there, by induction on the subtree. -/
theorem visit_calm (checker : Checker) (context : PassContext) (node : Subtree)
    {progress : Progress} (calm : progress.pass.Calm)
    : (checker.visitor context).visit node progress
      = { progress with
          pass := checker.report context (checker.found context node progress.around)
            progress.pass } := by
  induction node using Subtree.induction generalizing progress with
  | step node ih =>
      have walked {state : Progress} (calm : state.pass.Calm) :=
        walk_calm (fun child member _ => ih child member) calm
      rw [Visitor.visit_eq, actionFor_visitor, found_eq, stepAt]
      cases reacts : checker.reactionFor? context node.kind with
      | none =>
          simp only [Option.map_none, Option.getD_none, Step.walk, Option.elim_some,
            List.append_nil]
          exact walked calm
      | some reaction =>
          simp only [Option.map_some, Option.getD_some, act]
          rw [report_append]
          cases (reaction progress.around node).below with
          | none => rfl
          | some around =>
              have inner := @walked { progress with around } calm
              simp only [inner, Option.elim_some]

/-- A run with a flag that nobody sets reports a diagnostic for each node that the walk finds. -/
theorem run_eq (checker : Checker) (context : PassContext) (root : Subtree)
    {flag : Option CancelFlag} (idle : ∀ held ∈ flag, held = { })
    : checker.run context root flag
      = { reported := (checker.found context root { }).map fun anchor =>
            checker.profile.diagnose context anchor (checker.message context.tree anchor)
          flag } := by
  rw [run, checker.visit_calm context root ⟨rfl, idle⟩, report_eq]
  rfl

end Checker

-----------------------------------------------------------------------------------------
-- The anchors of a rule
-----------------------------------------------------------------------------------------

namespace Rule

/-- The nodes that a rule reports in a scope, in order. -/
def anchorsIn (rule : Rule) (tree : Tree) (scope : Scope) : List Subtree :=
  (tree.subtree? scope.root).elim [] fun root => rule.checker.found { tree, scope } root { }

/-- The nodes that a rule reports in a tree, in order. -/
def anchors (rule : Rule) (tree : Tree) : List Subtree :=
  (Scope.collect tree rule.profile.scopes).flatMap (rule.anchorsIn tree)

/-- The diagnostic of a rule for a node. -/
def diagnose (rule : Rule) (context : PassContext) (anchor : Subtree) : Diagnostic :=
  rule.profile.diagnose context anchor (rule.checker.message context.tree anchor)

/-- A pass that nobody stops reports a diagnostic for each anchor in its scope, and neither breaks
down nor touches its flag.
-/
theorem inspectScope_eq (rule : Rule) {context : PassContext} (linked : context.tree.Linked)
    {flag : Option CancelFlag} (idle : ∀ held ∈ flag, held = { })
    : Inspection.inspectScope rule context flag
      = { reported := (rule.anchorsIn context.tree context.scope).map (rule.diagnose context)
          flag } := by
  rw [Inspection.inspectScope, anchorsIn]
  split
  · next present =>
      obtain ⟨root, shown⟩ := linked.subtree?_exists (Tree.contains_iff.mp present)
      rw [shown]
      exact rule.checker.run_eq context root idle
  · next absent =>
      have outside : context.tree.subtree? context.scope.root = none := by
        refine Option.eq_none_iff_forall_ne_some.mpr fun found shown => ?_
        obtain ⟨node, here, _⟩ := Tree.subtree?_eq_some shown
        rw [Tree.node?_eq_none_iff.mpr
          (Nat.le_of_not_lt fun inside => absent (Tree.contains_iff.mpr inside))] at here
        exact absurd here (by simp)
      rw [outside]
      rfl

/-- Passes that nobody stops report what each of them does, scope by scope, by induction on the
scopes.
-/
theorem inspectScopes_eq (rule : Rule) {tree : Tree} (linked : tree.Linked)
    (options : PassOptions) (scopes : List Scope) {flag : Option CancelFlag}
    (idle : ∀ held ∈ flag, held = { })
    : Inspection.inspectScopes rule tree options scopes flag
      = { reported := scopes.flatMap fun scope =>
            (rule.anchorsIn tree scope).map (rule.diagnose { tree, scope, options })
          flag } := by
  induction scopes with
  | nil => rfl
  | cons scope rest ih =>
      rw [Inspection.inspectScopes, rule.inspectScope_eq linked idle, ih]
      rfl

/-- A rule reports what its walks find from the roots of its scopes. -/
theorem anchors_eq {rule : Rule} {tree : Tree} {finds : Subtree → List Subtree}
    (each
      : ∀ scope ∈ Scope.collect tree rule.profile.scopes,
          ∀ root,
            tree.subtree? scope.root = some root
            → rule.checker.found { tree, scope } root { } = finds root)
    : rule.anchors tree
      = ((Scope.collect tree rule.profile.scopes).map (·.root)).flatMap fun id =>
          (tree.subtree? id).elim [] finds := by
  rw [anchors, List.flatMap_map]
  refine List.flatMap_congr fun scope listed => ?_
  rw [anchorsIn]
  cases shown : tree.subtree? scope.root with
  | none => rfl
  | some root => exact each scope listed root shown

/-- A rule that runs on methods reports what its walks of the attached methods find. -/
theorem anchors_methods {rule : Rule} (scopes : rule.profile.scopes = [.methodScope])
    {tree : Tree} {finds : Subtree → List Subtree}
    (each
      : ∀ scope method,
          tree.subtree? method.id = some method
          → method.kind = .method
          → rule.checker.found { tree, scope } method { } = finds method)
    : rule.anchors tree
      = (tree.preorder.filter tree.isMethodAt).flatMap fun id =>
          (tree.subtree? id).elim [] finds := by
  rw [← Tree.collect_methods, ← scopes]
  refine anchors_eq fun scope listed method shown => ?_
  rw [scopes] at listed
  have root := List.mem_map_of_mem (f := (·.root)) listed
  have number := Tree.subtree?_id shown
  rw [Tree.collect_methods, ← number] at root
  rw [← number] at shown
  have isMethod := beq_iff_eq.mp (List.mem_filter.mp root).2
  exact each scope method shown (Tree.kind_of_shown shown isMethod)

/-- A rule that tests each method by itself reports the attached methods that pass the test, by
induction on the attached nodes.
-/
theorem anchors_tested {rule : Rule} (scopes : rule.profile.scopes = [.methodScope])
    {tree : Tree} {test : Subtree → Bool}
    (each
      : ∀ scope method,
          tree.subtree? method.id = some method
          → method.kind = .method
          → rule.checker.found { tree, scope } method { } = method.selfIf test)
    : (rule.anchors tree).map Subtree.id
      = (tree.preorder.filter tree.isMethodAt).filter fun id => (tree.subtree? id).any test := by
  rw [anchors_methods scopes each]
  induction tree.preorder.filter tree.isMethodAt with
  | nil => rfl
  | cons id rest ih =>
      rw [List.flatMap_cons, List.map_append, ih, List.filter_cons]
      cases shown : tree.subtree? id with
      | none => rfl
      | some method =>
          rw [Option.elim_some, Option.any_some, Subtree.selfIf, ← Tree.subtree?_id shown]
          cases test method <;> rfl

/-- If the test tells which methods have a problem, the nodes reported are the attached methods
with the problem.
-/
theorem mem_anchors_tested {rule : Rule} (scopes : rule.profile.scopes = [.methodScope])
    {tree : Tree} (linked : tree.Linked) {test : Subtree → Bool} {problem : NodeId → Prop}
    (each
      : ∀ scope method,
          tree.subtree? method.id = some method
          → method.kind = .method
          → rule.checker.found { tree, scope } method { } = method.selfIf test)
    (tells
      : ∀ method : Subtree,
          tree.subtree? method.id = some method
          → method.kind = .method
          → (test method ↔ problem method.id))
    (methods : ∀ id, problem id → tree.kind? id = some .method) {id : NodeId}
    : id ∈ (rule.anchors tree).map Subtree.id ↔ id ∈ tree.preorder ∧ problem id := by
  rw [anchors_tested scopes each, List.mem_filter, List.mem_filter, Option.any_eq_true]
  constructor
  · rintro ⟨⟨attached, isMethod⟩, method, shown, passes⟩
    obtain rfl := Tree.subtree?_id shown
    have kind := Tree.kind_of_shown shown (beq_iff_eq.mp isMethod)
    exact ⟨attached, (tells method shown kind).mp passes⟩
  · rintro ⟨attached, flagged⟩
    have isMethod := methods id flagged
    obtain ⟨method, shown⟩ := linked.subtree?_exists (Tree.lt_size_of_kind? isMethod)
    obtain rfl := Tree.subtree?_id shown
    exact ⟨⟨attached, beq_iff_eq.mpr isMethod⟩, method, shown,
      (tells method shown (Tree.kind_of_shown shown isMethod)).mpr flagged⟩

/-- A run over a tree that nobody stops reports each anchor once for every time that it is listed,
in order, whatever the options say.
-/
theorem inspectTree_anchors (rule : Rule) {tree : Tree} (linked : tree.Linked)
    (options : PassOptions) {flag : Option CancelFlag} (idle : ∀ held ∈ flag, held = { })
    : (Inspection.inspectTree rule tree options flag).reported.map (·.anchor)
      = (rule.anchors tree).map Subtree.id := by
  rw [Inspection.inspectTree, rule.inspectScopes_eq linked options _ idle, anchors,
    List.map_flatMap, List.map_flatMap]
  simp only [List.map_map]
  rfl

/-- Where a rule lists the nodes with a problem as its anchors, each of them once, a run that nobody
stops reports each problem once, and nothing else.
-/
theorem countP_reported (rule : Rule) {tree : Tree} (linked : tree.Linked)
    {problem : NodeId → Prop} (once : ((rule.anchors tree).map Subtree.id).Nodup)
    (listed : ∀ id, id ∈ (rule.anchors tree).map Subtree.id ↔ problem id)
    (options : PassOptions) {flag : Option CancelFlag} (idle : ∀ held ∈ flag, held = { })
    (id : NodeId)
    : (problem id
        → (Inspection.inspectTree rule tree options flag).reported.countP (·.anchor = id) = 1)
      ∧ (¬problem id
        → (Inspection.inspectTree rule tree options flag).reported.countP (·.anchor = id) = 0) := by
  have counted : (Inspection.inspectTree rule tree options flag).reported.countP (·.anchor = id)
      = ((rule.anchors tree).map Subtree.id).count id := by
    rw [← rule.inspectTree_anchors linked options idle, List.count, List.countP_map]
    rfl
  rw [counted, ← listed]
  exact ⟨List.count_eq_one_of_mem once, List.count_eq_zero.mpr⟩

/-- What a run over a tree reports is the diagnostic of an anchor in one of the scopes. -/
theorem mem_inspectTree_iff (rule : Rule) {tree : Tree} (linked : tree.Linked)
    {options : PassOptions} {flag : Option CancelFlag} (idle : ∀ held ∈ flag, held = { })
    {diagnostic : Diagnostic}
    : diagnostic ∈ (Inspection.inspectTree rule tree options flag).reported
      ↔ ∃ scope ∈ Scope.collect tree rule.profile.scopes,
          ∃ anchor ∈ rule.anchorsIn tree scope,
            rule.diagnose { tree, scope, options } anchor = diagnostic := by
  rw [Inspection.inspectTree, rule.inspectScopes_eq linked options _ idle]
  simp only [List.mem_flatMap, List.mem_map]
  rfl

/-- A diagnostic that carries a fix carries the one of its rule. -/
theorem fix_of_reported (rule : Rule) {tree : Tree} (linked : tree.Linked)
    {options : PassOptions} {flag : Option CancelFlag} (idle : ∀ held ∈ flag, held = { })
    {diagnostic : Diagnostic}
    (reported : diagnostic ∈ (Inspection.inspectTree rule tree options flag).reported)
    {fix : Fix} (offered : diagnostic.fix = some fix)
    : rule.profile.fix = some fix := by
  obtain ⟨scope, _, anchor, _, rfl⟩ := (rule.mem_inspectTree_iff linked idle).mp reported
  rw [diagnose, Profile.diagnose] at offered
  dsimp only at offered
  split at offered
  · cases offered
  · exact offered

end Rule

end TreeLint
