import TreeLint.Inspection.Probe
import TreeLint.Outline.Builder
import TreeLint.Proofs.Rule.Reports
import TreeLint.Suite.Basic
import TreeLint.Tree.Loading

/-! A run of a suite against the passes that it consists of. As long as nobody sets the flag,
every pass runs as it would alone, and the result lists what each of them left, in order. A built-in
rule neither sets the flag nor breaks down on a linked tree, so a run of rules that nobody stops is
the runs of its rules put together.
-/

namespace TreeLint

-----------------------------------------------------------------------------------------
-- Results
-----------------------------------------------------------------------------------------

namespace AnalysisResult

@[simp] theorem append_empty (result : AnalysisResult) : result.append { } = result := by
  simp [append]

@[simp] theorem empty_append (result : AnalysisResult) : append { } result = result := by
  simp [append]

/-- Results may be put together in any grouping. -/
theorem append_assoc (first second third : AnalysisResult)
    : (first.append second).append third = first.append (second.append third) := by
  simp [append, Nat.add_assoc, Bool.or_assoc]

end AnalysisResult

namespace Suite

variable {ι : Type} [Inspection ι]

-----------------------------------------------------------------------------------------
-- Planned passes
-----------------------------------------------------------------------------------------

/-- A pass of a suite: an entry and a scope that it runs on. -/
structure PlannedPass (ι : Type) where
  entry : SuiteEntry ι
  scope : Scope

/-- The passes of an entry over a tree, in pre-order of the scopes. -/
def passesOf (tree : Tree) (entry : SuiteEntry ι) : List (PlannedPass ι) :=
  (Scope.collect tree (Inspection.profile entry.timed.inspection).scopes).map (⟨entry, ·⟩)

/-- The passes of a suite over a tree, entry by entry; those that are not enabled have none. -/
def plan (suite : Suite ι) (tree : Tree) : List (PlannedPass ι) :=
  (suite.entries.filter (·.enabled)).flatMap (passesOf tree)

def optionsFor (suite : Suite ι) (entry : SuiteEntry ι) : PassOptions :=
  { interactive := suite.interactive, severity := entry.severity }

/-- What comes of a pass that is run alone, with a flag that nobody sets. -/
def passAlone (suite : Suite ι) (tree : Tree) (pass : PlannedPass ι) : PassState :=
  Inspection.inspectScope pass.entry.timed.inspection
    { tree, scope := pass.scope, options := suite.optionsFor pass.entry } (some { })

/-- The failure of a pass that breaks down. -/
def failure? (suite : Suite ι) (tree : Tree) (pass : PlannedPass ι) : Option PassFailure :=
  (suite.passAlone tree pass).breakdown.map fun breakdown =>
    { rule := (Inspection.profile pass.entry.timed.inspection).shortName
      scope := pass.scope.root
      message := breakdown.message }

/-- What comes of some passes that are each run alone. -/
def resultOf (suite : Suite ι) (tree : Tree) (passes : List (PlannedPass ι)) : AnalysisResult :=
  { diagnostics := passes.flatMap fun pass => (suite.passAlone tree pass).reported
    failures := passes.filterMap (suite.failure? tree)
    passes := passes.length }

theorem resultOf_append (suite : Suite ι) (tree : Tree) (first second : List (PlannedPass ι))
    : suite.resultOf tree (first ++ second)
      = (suite.resultOf tree first).append (suite.resultOf tree second) := by
  simp [resultOf, AnalysisResult.append]

/-- The pass leaves the flag as it was: it was not set, and nobody is going to set it. -/
def KeepsFlag (suite : Suite ι) (tree : Tree) (pass : PlannedPass ι) : Prop :=
  (suite.passAlone tree pass).flag = some { }

-----------------------------------------------------------------------------------------
-- Runs that nobody stops
-----------------------------------------------------------------------------------------

namespace Run

/-- Nobody has stopped the run, and nobody is going to. -/
structure Unstopped (run : Run) : Prop where
  flag : run.session.flag = { }
  going : run.result.cancelled = false

/-- Looking at the flag of such a run does nothing. -/
theorem Unstopped.checkFlag {run : Run} (unstopped : run.Unstopped) : run.checkFlag = run := by
  obtain ⟨result, flag, keeper⟩ := run
  cases unstopped.flag
  simp [Run.checkFlag, CancelFlag.ask]

end Run

/-- A pass in its turn adds what comes of it alone. -/
theorem addPass_result (suite : Suite ι) (tree : Tree) (pass : PlannedPass ι) (run : Run)
    (keeper : Timekeeper)
    : (run.addPass (Inspection.profile pass.entry.timed.inspection) pass.scope
        (suite.passAlone tree pass) keeper).result
      = run.result.append (suite.resultOf tree [pass]) := by
  cases broken : (suite.passAlone tree pass).breakdown <;>
    simp [Run.addPass, resultOf, failure?, broken]

/-- It leaves the run going as long as it keeps the flag. -/
theorem addPass_unstopped {suite : Suite ι} {tree : Tree} {pass : PlannedPass ι} {run : Run}
    (unstopped : run.Unstopped) (keeps : suite.KeepsFlag tree pass) (keeper : Timekeeper)
    : (run.addPass (Inspection.profile pass.entry.timed.inspection) pass.scope
        (suite.passAlone tree pass) keeper).Unstopped where
  flag := by
    rw [Run.addPass, keeps]
    rfl
  going := by
    rw [addPass_result, AnalysisResult.append, unstopped.going]
    rfl

/-- The next scope of an entry gets its pass, which runs as it would alone, and then come the
others. Timing decides nothing but what the keeper holds.
-/
theorem runScopes_cons (suite : Suite ι) (tree : Tree) (clock : Nat → Duration)
    {entry : SuiteEntry ι} {scope : Scope} {rest : List Scope} {timed : Timed ι} {run : Run}
    (same : timed.inspection = entry.timed.inspection) (unstopped : run.Unstopped)
    : ∃ (next : Timed ι) (keeper : Timekeeper),
        next.inspection = entry.timed.inspection
        ∧ suite.runScopes tree clock entry.severity (scope :: rest) timed run
          = suite.runScopes tree clock entry.severity rest next
              (run.addPass (Inspection.profile entry.timed.inspection) scope
                (suite.passAlone tree ⟨entry, scope⟩) keeper) := by
  obtain ⟨inspection, resolved⟩ := timed
  cases same
  rw [runScopes, unstopped.checkFlag, unstopped.going, unstopped.flag]
  exact ⟨{ inspection := entry.timed.inspection, resolved := some _ }, _, rfl, rfl⟩

/-- The passes of one entry, by induction on the scopes: each adds what comes of it alone. -/
theorem runScopes_result (suite : Suite ι) (tree : Tree) (clock : Nat → Duration)
    {entry : SuiteEntry ι} {scopes : List Scope} {timed : Timed ι} {run : Run}
    (same : timed.inspection = entry.timed.inspection) (unstopped : run.Unstopped)
    (keeps : ∀ scope ∈ scopes, suite.KeepsFlag tree ⟨entry, scope⟩)
    : (suite.runScopes tree clock entry.severity scopes timed run).2.result
        = run.result.append (suite.resultOf tree (scopes.map (⟨entry, ·⟩)))
      ∧ (suite.runScopes tree clock entry.severity scopes timed run).2.Unstopped := by
  induction scopes generalizing timed run with
  | nil => exact ⟨(run.result.append_empty).symm, unstopped⟩
  | cons scope rest ih =>
      obtain ⟨next, keeper, nextSame, step⟩ := runScopes_cons suite tree clock same unstopped
      have going := addPass_unstopped unstopped (keeps scope List.mem_cons_self) keeper
      rw [step, List.map_cons, ← List.singleton_append, resultOf_append,
        ← AnalysisResult.append_assoc, ← addPass_result suite tree ⟨entry, scope⟩ run keeper]
      exact ih nextSame going fun other later => keeps other (List.mem_cons_of_mem scope later)

/-- The passes of some entries, by induction on the entries. -/
theorem runEntries_result (suite : Suite ι) (tree : Tree) (clock : Nat → Duration)
    {entries : List (SuiteEntry ι)} {run : Run} (unstopped : run.Unstopped)
    (keeps : ∀ entry ∈ entries, entry.enabled → ∀ pass ∈ passesOf tree entry,
      suite.KeepsFlag tree pass)
    : (suite.runEntries tree clock entries run).2.result
        = run.result.append
            (suite.resultOf tree ((entries.filter (·.enabled)).flatMap (passesOf tree)))
      ∧ (suite.runEntries tree clock entries run).2.Unstopped := by
  induction entries generalizing run with
  | nil => exact ⟨(run.result.append_empty).symm, unstopped⟩
  | cons entry rest ih =>
      have later := fun other (member : other ∈ rest) =>
        keeps other (List.mem_cons_of_mem entry member)
      rw [runEntries, unstopped.going]
      by_cases enabled : entry.enabled
      · have scopes := runScopes_result suite tree clock rfl unstopped fun scope member =>
          keeps entry List.mem_cons_self enabled ⟨entry, scope⟩ (List.mem_map_of_mem member)
        rw [List.filter_cons_of_pos enabled, List.flatMap_cons, resultOf_append,
          ← AnalysisResult.append_assoc, passesOf, ← scopes.1]
        simp only [enabled, Bool.not_false, Bool.and_self, if_true]
        exact ih scopes.2 later
      · rw [List.filter_cons_of_neg enabled]
        simp only [enabled, Bool.false_and, Bool.false_eq_true, if_false]
        exact ih unstopped later

/-- Where nothing breaks down, an inspection run by itself reports what its passes report alone, by
induction on the scopes.
-/
theorem inspectScopes_reported {suite : Suite ι} {tree : Tree} {entry : SuiteEntry ι}
    {scopes : List Scope}
    (keeps : ∀ scope ∈ scopes, suite.KeepsFlag tree ⟨entry, scope⟩)
    (sound : ∀ scope ∈ scopes, (suite.passAlone tree ⟨entry, scope⟩).breakdown = none)
    : (Inspection.inspectScopes entry.timed.inspection tree (suite.optionsFor entry) scopes
        (some { })).reported
      = scopes.flatMap fun scope => (suite.passAlone tree ⟨entry, scope⟩).reported := by
  induction scopes with
  | nil => rfl
  | cons scope rest ih =>
      have whole : (suite.passAlone tree ⟨entry, scope⟩).breakdown = none :=
        sound scope List.mem_cons_self
      have flag : (suite.passAlone tree ⟨entry, scope⟩).flag = some { } :=
        keeps scope List.mem_cons_self
      have others := ih (fun other later => keeps other (List.mem_cons_of_mem scope later))
        (fun other later => sound other (List.mem_cons_of_mem scope later))
      rw [passAlone] at whole flag
      rw [Inspection.inspectScopes, List.flatMap_cons, ← others, passAlone]
      simp only [whole, Option.isSome_none, Bool.false_eq_true, if_false, flag]
      rfl

/-- The result of a run that nobody stops is what comes of its planned passes, each run alone. -/
theorem analyze_result {suite : Suite ι} {tree : Tree} {session : Session}
    (idle : session.flag = { }) (keeps : ∀ pass ∈ suite.plan tree, suite.KeepsFlag tree pass)
    (clock : Nat → Duration)
    : (suite.analyze tree session clock).1
      = { suite.resultOf tree (suite.plan tree) with filesChecked := 1, cancelled := false } := by
  have unstopped : Run.Unstopped { session } := ⟨idle, rfl⟩
  have ran := runEntries_result suite tree clock unstopped fun entry member enabled pass planned =>
    keeps pass (List.mem_flatMap.mpr ⟨entry, List.mem_filter.mpr ⟨member, enabled⟩, planned⟩)
  rw [AnalysisResult.empty_append, ← plan] at ran
  simp only [analyze, ran.2.checkFlag, ite_self, ran.1]
  rfl

/-- Where nothing breaks down, what the planned passes report is what each enabled inspection
reports by itself.
-/
theorem diagnostics_plan {suite : Suite ι} {tree : Tree}
    (keeps : ∀ pass ∈ suite.plan tree, suite.KeepsFlag tree pass)
    (sound : ∀ pass ∈ suite.plan tree, (suite.passAlone tree pass).breakdown = none)
    : (suite.resultOf tree (suite.plan tree)).diagnostics
      = (suite.entries.filter (·.enabled)).flatMap fun entry =>
          (Inspection.inspectTree entry.timed.inspection tree (suite.optionsFor entry)
            (some { })).reported := by
  rw [resultOf, plan, List.flatMap_assoc]
  refine congrArg List.flatten (List.map_congr_left fun entry member => ?_)
  have planned (scope : Scope)
      (among : scope ∈ Scope.collect tree (Inspection.profile entry.timed.inspection).scopes)
      : ⟨entry, scope⟩ ∈ suite.plan tree :=
    List.mem_flatMap.mpr ⟨entry, member, List.mem_map_of_mem among⟩
  rw [passesOf, List.flatMap_map, Inspection.inspectTree]
  exact (inspectScopes_reported (fun scope among => keeps _ (planned scope among))
    (fun scope among => sound _ (planned scope among))).symm

/-- A run that nobody stops: the result is what comes of the planned passes, each run alone and in
order, and where none of them breaks down, every enabled inspection reports what it reports by
itself.
-/
theorem analyze_eq_resultOf {suite : Suite ι} {tree : Tree} {session : Session}
    (idle : session.flag = { }) (keeps : ∀ pass ∈ suite.plan tree, suite.KeepsFlag tree pass)
    (clock : Nat → Duration)
    : (suite.analyze tree session clock).1
        = { suite.resultOf tree (suite.plan tree) with filesChecked := 1, cancelled := false }
      ∧ ((∀ pass ∈ suite.plan tree, (suite.passAlone tree pass).breakdown = none)
          → (suite.analyze tree session clock).1.diagnostics
            = (suite.entries.filter (·.enabled)).flatMap fun entry =>
                (Inspection.inspectTree entry.timed.inspection tree (suite.optionsFor entry)
                  (some { })).reported) := by
  refine ⟨analyze_result idle keeps clock, fun sound => ?_⟩
  rw [analyze_result idle keeps clock]
  exact diagnostics_plan keeps sound

end Suite

/-- A file with a class with a method that some probes cannot handle, and another method. -/
def twoMethods : Tree :=
  Tree.ofDocument
    { root :=
        (Outline.ofKind .file).withChild
          (((Outline.ofKind .namedClass).withChild ((Outline.ofKind .method).named "bad")).withChild
            ((Outline.ofKind .method).named "good")) }

/-- A probe of methods that breaks down at a method named `bad`, and one that does not. -/
def twoProbes : Suite Probe where
  entries :=
    [{ enabled := true
       timed :=
        { inspection :=
            { breaksAt := some "bad"
              profile :=
                { shortName := "Fragile", id := "Fragile", displayName := "", group := ""
                  scopes := [.methodScope] } } } },
      { enabled := true
        timed :=
          { inspection :=
              { profile :=
                  { shortName := "Steady", id := "Steady", displayName := "", group := ""
                    scopes := [.methodScope] } } } }]
  interactive := false

/-- The breakdown of the first probe at the first method costs neither what it had reported there
nor any other pass.
-/
theorem twoProbes_isolated
    : let result := (twoProbes.analyze twoMethods { }).1
      result.diagnostics.map (fun diagnostic => (diagnostic.rule, diagnostic.anchor))
        = [("Fragile", 2), ("Fragile", 3), ("Steady", 2), ("Steady", 3)]
      ∧ result.failures = [{ rule := "Fragile", scope := 2, message := "cannot handle this" }]
      ∧ result.passes = 4 := by
  have keeps : ∀ pass ∈ twoProbes.plan twoMethods, twoProbes.KeepsFlag twoMethods pass := by
    unfold Suite.KeepsFlag
    decide
  have idle : ({ } : Session).flag = { } := rfl
  rw [(Suite.analyze_eq_resultOf idle keeps fun _ => .zero).1]
  exact ⟨rfl, rfl, rfl⟩

-----------------------------------------------------------------------------------------
-- Built-in rules
-----------------------------------------------------------------------------------------

/-- A pass of a rule over a linked tree keeps an idle flag and does not break down. -/
theorem Rule.inspectScope_calm (rule : Rule) (context : PassContext)
    (linked : context.tree.Linked)
    : (Inspection.inspectScope rule context (some { })).flag = some { }
      ∧ (Inspection.inspectScope rule context (some { })).breakdown = none := by
  rw [Inspection.inspectScope]
  split
  · next present =>
      obtain ⟨root, shown⟩ := linked.subtree?_exists (Tree.contains_iff.mp present)
      rw [shown]
      exact rule.checker.run_calm context root
  · exact ⟨rfl, rfl⟩

/-- A run of rules that nobody stops reports what each enabled rule reports by itself, whichever
others are enabled, and no failures.
-/
theorem Suite.analyze_rules {suite : Suite Rule} {tree : Tree} {session : Session}
    (linked : tree.Linked) (idle : session.flag = { }) (clock : Nat → Duration)
    : (suite.analyze tree session clock).1
      = { diagnostics :=
            (suite.entries.filter (·.enabled)).flatMap fun entry =>
              (Inspection.inspectTree entry.timed.inspection tree (suite.optionsFor entry)
                (some { })).reported
          passes := (suite.plan tree).length
          filesChecked := 1 } := by
  have calm (pass : PlannedPass Rule) := pass.entry.timed.inspection.inspectScope_calm
    { tree, scope := pass.scope, options := suite.optionsFor pass.entry } linked
  have keeps : ∀ pass ∈ suite.plan tree, suite.KeepsFlag tree pass := fun pass _ => (calm pass).1
  have sound : ∀ pass ∈ suite.plan tree, (suite.passAlone tree pass).breakdown = none :=
    fun pass _ => (calm pass).2
  have none : (suite.plan tree).filterMap (suite.failure? tree) = [] := by
    refine List.filterMap_eq_nil_iff.mpr fun pass member => ?_
    rw [Suite.failure?, sound pass member, Option.map_none]
  rw [Suite.analyze_result idle keeps clock, ← Suite.diagnostics_plan keeps sound]
  simp only [Suite.resultOf, none]

end TreeLint
