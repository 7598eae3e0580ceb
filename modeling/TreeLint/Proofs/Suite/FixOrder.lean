import TreeLint.Proofs.Rule.ReportOrder
import TreeLint.Proofs.Suite.Cancellation

/-! The order in which the fixes of a report are tried: the last report first. Main result: the fix
of a node is tried behind those of the nodes below it exactly if no pass reports a node above
another one, and no rule a node above one that a rule before it reports.
-/

namespace TreeLint

-----------------------------------------------------------------------------------------
-- Attempts
-----------------------------------------------------------------------------------------

/-- The diagnostics of a report whose fixes are tried, in the order in which they are. -/
def attempts (diagnostics : List Diagnostic) : List Diagnostic :=
  (diagnostics.filter (·.fix.isSome)).reverse

/-- Trying the fixes of a report is trying the attempts one after the other. -/
theorem applyAll_eq (diagnostics : List Diagnostic) (tree : Tree)
    : applyAll diagnostics tree = (attempts diagnostics).foldl FixSummary.step ({ }, tree) := by
  have skips (state : FixSummary × Tree) (diagnostic : Diagnostic)
      : FixSummary.step state diagnostic
        = if diagnostic.fix.isSome then FixSummary.step state diagnostic else state := by
    cases offered : diagnostic.fix <;> simp [FixSummary.step, offered]
  rw [applyAll, attempts, ← List.filter_reverse, List.foldl_filter]
  exact congrArg (List.foldl · ({ }, tree) diagnostics.reverse) (funext₂ skips)

/-- No attempt is made at a node above that of a later attempt. -/
def Tree.DeepestFirst (tree : Tree) (attempts : List Diagnostic) : Prop :=
  attempts.Pairwise fun earlier later => ¬tree.Above earlier.anchor later.anchor

theorem Tree.deepestFirst_attempts {tree : Tree} {diagnostics : List Diagnostic}
    : tree.DeepestFirst (attempts diagnostics)
      ↔ ((diagnostics.filter (·.fix.isSome)).map (·.anchor)).Pairwise fun earlier later =>
          ¬tree.Above later earlier := by
  rw [Tree.DeepestFirst, attempts, List.pairwise_reverse, List.pairwise_map]

-----------------------------------------------------------------------------------------
-- Rules that offer fixes
-----------------------------------------------------------------------------------------

/-- A diagnostic has the fix of its profile, if it has one, unless the fix waits for an interactive
session.
-/
theorem Profile.isSome_fix_diagnose (profile : Profile) (context : PassContext)
    (anchor : Subtree) (template : String)
    : (profile.diagnose context anchor template).fix.isSome
      = (profile.fix.isSome && (context.options.interactive || !profile.fixOnlyInteractive)) := by
  obtain ⟨tree, scope, ⟨interactive, severity⟩, collected⟩ := context
  rw [Profile.diagnose]
  cases interactive <;> cases profile.fixOnlyInteractive <;> simp

namespace Suite

/-- The suite offers the fix that a rule has, if it has any. -/
def offers (suite : Suite Rule) (rule : Rule) : Bool :=
  rule.profile.fix.isSome && (suite.interactive || !rule.profile.fixOnlyInteractive)

/-- The rules that run and whose fixes are offered, in the order in which they run. -/
def fixers (suite : Suite Rule) : List Rule :=
  ((suite.entries.filter (·.enabled)).map (·.timed.inspection)).filter suite.offers

theorem isSome_fix_of_mem_fixers {suite : Suite Rule} {rule : Rule} (member : rule ∈ suite.fixers)
    : rule.profile.fix.isSome :=
  (Bool.and_eq_true_iff.mp (List.mem_filter.mp member).2).1

/-- A diagnostic of an entry has a fix if the suite offers that of the rule. -/
theorem isSome_fix (suite : Suite Rule) (tree : Tree) (entry : SuiteEntry Rule) (scope : Scope)
    (anchor : Subtree)
    : (entry.timed.inspection.diagnose
        { tree, scope, options := suite.optionsFor entry } anchor).fix.isSome
      = suite.offers entry.timed.inspection :=
  entry.timed.inspection.profile.isSome_fix_diagnose _ anchor _

/-- The reports with fixes of the passes of an entry are the anchors of its rule, if the suite
offers its fix.
-/
theorem anchors_entry (suite : Suite Rule) {tree : Tree} (linked : tree.Linked)
    (entry : SuiteEntry Rule)
    : ((suite.resultOf tree (passesOf tree entry)).diagnostics.filter (·.fix.isSome)).map (·.anchor)
      = if suite.offers entry.timed.inspection then
          (entry.timed.inspection.anchors tree).map Subtree.id
        else
          [] := by
  have idle : ∀ held ∈ some ({ } : CancelFlag), held = { } := by simp
  have pass (scope : Scope)
      : ((suite.passAlone tree ⟨entry, scope⟩).reported.filter (·.fix.isSome)).map (·.anchor)
        = if suite.offers entry.timed.inspection then
            (entry.timed.inspection.anchorsIn tree scope).map Subtree.id
          else
            [] := by
    have same : ((fun diagnostic : Diagnostic => diagnostic.fix.isSome)
          ∘ entry.timed.inspection.diagnose { tree, scope, options := suite.optionsFor entry })
        = fun _ => suite.offers entry.timed.inspection :=
      funext (suite.isSome_fix tree entry scope)
    rw [passAlone, Rule.inspectScope_eq _ linked idle, List.filter_map, same]
    cases suite.offers entry.timed.inspection with
    | true => simp [Rule.diagnose, Profile.diagnose]
    | false => simp
  simp only [resultOf, passesOf, List.flatMap_map, List.filter_flatMap, List.map_flatMap, pass]
  cases suite.offers entry.timed.inspection with
  | true => rw [if_pos rfl, Rule.anchors, List.map_flatMap]; rfl
  | false => simp

/-- The reports with fixes of all planned passes are the anchors of the rules whose fixes are
offered, by induction on the entries.
-/
theorem anchors_plan (suite : Suite Rule) {tree : Tree} (linked : tree.Linked)
    : ((suite.resultOf tree (suite.plan tree)).diagnostics.filter (·.fix.isSome)).map (·.anchor)
      = suite.fixers.flatMap fun rule => (rule.anchors tree).map Subtree.id := by
  rw [plan, fixers]
  induction suite.entries.filter (·.enabled) with
  | nil => rfl
  | cons entry rest ih =>
      rw [List.flatMap_cons, resultOf_append, AnalysisResult.append]
      rw [List.filter_append, List.map_append, anchors_entry suite linked, ih, List.map_cons,
        List.filter_cons]
      split <;> simp

/-- Whoever stops a run and whenever, its reports with fixes are some of the anchors of the rules
whose fixes are offered, in order. If nobody does, they are all of them.
-/
theorem anchors_analyze (suite : Suite Rule) {tree : Tree} (linked : tree.Linked)
    (session : Session) (clock : Nat → Duration)
    : let anchors := suite.fixers.flatMap fun rule => (rule.anchors tree).map Subtree.id
      let reported := ((suite.analyze tree session clock).1.diagnostics.filter (·.fix.isSome)).map
        (·.anchor)
      reported.Sublist anchors ∧ (session.flag = { } → reported = anchors) := by
  have cuts : ∀ pass ∈ suite.plan tree, suite.Interruptible tree pass :=
    fun pass _ => suite.interruptible tree pass
  refine ⟨?_, fun idle => ?_⟩
  · rw [← suite.anchors_plan linked]
    exact ((analyze_partOf cuts session clock).1.filter _).map _
  · rw [← suite.anchors_plan linked, analyze_result idle (fun pass _ => suite.keepsFlag tree pass)]

-----------------------------------------------------------------------------------------
-- Whether deeper fixes come first
-----------------------------------------------------------------------------------------

/-- The fixes of a report are tried from the last diagnostic to the first, and fixes of nodes come
before those of the nodes above them, whatever is stopped on the way, exactly if no pass with fixes
reports a node above another one, and no rule with fixes a node above one that such a rule before it
reports. Within a pass, a fix that is tried early is that of a node above and never of one below.
-/
theorem deepestFirst_iff {suite : Suite Rule} {tree : Tree} (coherent : tree.Coherent)
    : (∀ diagnostics,
        applyAll diagnostics tree = (attempts diagnostics).foldl FixSummary.step ({ }, tree))
      ∧ (∀ rule ∈ suite.fixers, ∀ scope,
          ((rule.anchorsIn tree scope).reverse).Pairwise fun earlier later =>
            ¬tree.Above later.id earlier.id)
      ∧ ((∀ session clock,
            tree.DeepestFirst (attempts (suite.analyze tree session clock).1.diagnostics))
          ↔ (∀ rule ∈ suite.fixers, rule.PassesApart tree)
            ∧ suite.fixers.Pairwise fun earlier later =>
                ∀ lower ∈ earlier.anchors tree, ∀ upper ∈ later.anchors tree,
                  ¬tree.Above upper.id lower.id) := by
  have fixes : ∀ rule ∈ suite.fixers, rule.profile.fix.isSome :=
    fun _ => isSome_fix_of_mem_fixers
  have ordered : ((suite.fixers.flatMap fun rule => (rule.anchors tree).map Subtree.id).Pairwise
        fun earlier later => ¬tree.Above later earlier)
      ↔ (∀ rule ∈ suite.fixers, rule.PassesApart tree)
        ∧ suite.fixers.Pairwise fun earlier later =>
            ∀ lower ∈ earlier.anchors tree, ∀ upper ∈ later.anchors tree,
              ¬tree.Above upper.id lower.id := by
    rw [List.pairwise_flatMap]
    refine and_congr (forall₂_congr fun rule member => ?_) ?_
    · rw [List.pairwise_map]
      exact Rule.anchors_ordered_iff (fixes rule member) coherent
    · simp only [List.forall_mem_map]
  refine ⟨fun diagnostics => applyAll_eq diagnostics tree, fun rule member scope => ?_, ?_⟩
  · rw [List.pairwise_reverse]
    exact Rule.anchorsIn_postOrder (fixes rule member) coherent.toLinked scope
  · rw [← ordered]
    refine ⟨fun deepest => ?_, fun holds session clock => ?_⟩
    · have whole := (suite.anchors_analyze coherent.toLinked { } fun _ => .zero).2 rfl
      rw [← whole]
      exact Tree.deepestFirst_attempts.mp (deepest { } fun _ => .zero)
    · exact Tree.deepestFirst_attempts.mpr
        (holds.sublist (suite.anchors_analyze coherent.toLinked session clock).1)

end Suite

/-- A file with a method that compares the outcome of a comparison with a literal. -/
def nestedComparisons : Document where
  root :=
    let inner := ((Outline.call "equals" (some (Outline.referenceExpression "b"))).withArgument
      ((Outline.literal "\"x\"").withType "String"))
    let outer := ((Outline.call "equals" (some inner)).withArgument
      ((Outline.literal "\"y\"").withType "String"))
    Outline.file.withChild <| (Outline.namedClass "A").withChild <|
      (Outline.method "m").withChild <| Outline.codeBlock.withChild <|
        Outline.expressionStatement outer

/-- A suite of nothing but the rule about comparisons with literals. -/
def comparisonSuite : Suite Rule where
  entries := [{ timed := { inspection := .literalAsArgToStringEquals }, enabled := true }]
  interactive := true

/-- The fix of the outer comparison is tried before that of the inner one. -/
theorem nestedComparisons_outerFirst
    : let tree := Tree.ofDocument nestedComparisons
      let tried := attempts (comparisonSuite.analyze tree { }).1.diagnostics
      tried.map (·.anchor) = [5, 6] ∧ tree.Above 5 6 ∧ ¬tree.DeepestFirst tried := by
  have tried : (attempts (comparisonSuite.analyze (Tree.ofDocument nestedComparisons)
      { }).1.diagnostics).map (·.anchor) = [5, 6] := by decide
  have above : (Tree.ofDocument nestedComparisons).Above 5 6 := .single rfl
  refine ⟨tried, above, fun deepest => ?_⟩
  have pair : [5, 6].Pairwise fun earlier later =>
      ¬(Tree.ofDocument nestedComparisons).Above earlier later :=
    tried ▸ List.pairwise_map.mpr deepest
  exact List.rel_of_pairwise_cons pair List.mem_cons_self above

/-- A pass reports one comparison above the other, so not every run tries deeper fixes first. -/
theorem nestedComparisons_notApart
    : ¬∀ session clock,
        (Tree.ofDocument nestedComparisons).DeepestFirst
          (attempts (comparisonSuite.analyze (Tree.ofDocument nestedComparisons) session
            clock).1.diagnostics) := by
  intro deepest
  have coherent := Tree.ofDocument_coherent nestedComparisons
  obtain ⟨apart, _⟩ := (Suite.deepestFirst_iff coherent).2.2.mp deepest
  have listed : ⟨.methodScope, 2⟩ ∈ Scope.collect (Tree.ofDocument nestedComparisons)
      Rule.literalAsArgToStringEquals.profile.scopes := by decide
  have found : (Rule.literalAsArgToStringEquals.anchorsIn (Tree.ofDocument nestedComparisons)
      ⟨.methodScope, 2⟩).map Subtree.id = [6, 5] := by decide
  have member (id : NodeId) (among : id ∈ [6, 5])
      : ∃ anchor ∈ Rule.literalAsArgToStringEquals.anchorsIn (Tree.ofDocument nestedComparisons)
          ⟨.methodScope, 2⟩, anchor.id = id :=
    List.mem_map.mp (found ▸ among)
  obtain ⟨upper, isUpper, upperId⟩ := member 5 (by decide)
  obtain ⟨lower, isLower, lowerId⟩ := member 6 (by decide)
  refine apart .literalAsArgToStringEquals (List.mem_singleton.mpr rfl) _ listed upper isUpper
    lower isLower ?_
  rw [upperId, lowerId]
  exact .single rfl

end TreeLint
