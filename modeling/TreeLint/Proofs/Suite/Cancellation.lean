import TreeLint.Proofs.Rule.Cancellation
import TreeLint.Proofs.Suite.Passes

/-! Runs that somebody may stop. Main result: a run of the rules reports part of what it reports
when nobody stops it, in order and unchanged, and a run that does not say that it was cancelled has
the whole result.
-/

namespace TreeLint

namespace Suite

variable {ι : Type} [Inspection ι]

/-- Whoever stops the pass and whenever, it does part of what it does alone. -/
def Interruptible (suite : Suite ι) (tree : Tree) (pass : PlannedPass ι) : Prop :=
  ∀ flag,
    (Inspection.inspectScope pass.entry.timed.inspection
        { tree, scope := pass.scope, options := suite.optionsFor pass.entry } (some flag)).PartOf
      (suite.passAlone tree pass)

-----------------------------------------------------------------------------------------
-- Runs
-----------------------------------------------------------------------------------------

namespace Run

/-- The run was told to stop, whether it has noticed or not. -/
def Stopped (run : Run) : Prop :=
  run.result.cancelled = true ∨ run.session.flag.isSet = true

/-- A run has reported part of what was due, and unless it was told to stop, its result is just what
was due.
-/
structure PartOf (run : Run) (due : AnalysisResult) : Prop where
  reported : run.result.diagnostics.Sublist due.diagnostics
  complete : run.result = due ∨ run.Stopped

/-- A run that has stopped has still reported part of what is due when more is. -/
theorem PartOf.cut {run : Run} {due : AnalysisResult} (part : run.PartOf due)
    (stopped : run.Stopped) (more : AnalysisResult)
    : run.PartOf (due.append more) where
  reported := part.reported.trans (List.sublist_append_left due.diagnostics more.diagnostics)
  complete := .inr stopped

/-- Looking at the flag reports nothing, and a run that does not end there has the result that was
due.
-/
theorem PartOf.checked {run : Run} {due : AnalysisResult} (part : run.PartOf due)
    : run.checkFlag.PartOf due
      ∧ (run.checkFlag.result.cancelled = false → run.checkFlag.result = due) := by
  obtain ⟨result, flag, keeper⟩ := run
  have going (goes : (checkFlag ⟨result, flag, keeper⟩).result.cancelled = false)
      : (checkFlag ⟨result, flag, keeper⟩).result = due := by
    obtain ⟨before, answer⟩ : result.cancelled = false ∧ flag.ask.1 = false :=
      Bool.or_eq_false_iff.mp goes
    have unstopped : ¬Stopped ⟨result, flag, keeper⟩ := by
      rintro (cancelled | isSet)
      · exact absurd (before.symm.trans cancelled) (by simp)
      · rw [CancelFlag.ask_of_isSet isSet] at answer
        exact absurd answer (by simp)
    rw [← part.complete.resolve_right unstopped]
    simp [checkFlag, answer]
  refine ⟨⟨part.reported, ?_⟩, going⟩
  cases goes : (checkFlag ⟨result, flag, keeper⟩).result.cancelled with
  | true => exact .inr (.inl goes)
  | false => exact .inl (going goes)

end Run

/-- A pass in its turn adds what comes of it alone or part of that, and is told to stop in that
case.
-/
theorem addPass_partOf {suite : Suite ι} {tree : Tree} {pass : PlannedPass ι} {run : Run}
    {state : PassState} (part : state.PartOf (suite.passAlone tree pass)) (keeper : Timekeeper)
    : (run.addPass (Inspection.profile pass.entry.timed.inspection) pass.scope state keeper).PartOf
        (run.result.append (suite.resultOf tree [pass])) := by
  rw [← suite.addPass_result tree pass run keeper]
  refine ⟨List.Sublist.append_left part.reported run.result.diagnostics, ?_⟩
  rcases part.complete with reported | ⟨held, holds, isSet⟩
  · exact .inl (by simp only [Run.addPass, part.breakdown, reported])
  · refine .inr (.inr ?_)
    rw [Run.addPass, Option.mem_def.mp holds]
    exact isSet

/-- The next scope of an entry ends the run of the entry if the flag is set, and otherwise gets its
pass with the flag as it is, and then come the others.
-/
theorem runScopes_step (suite : Suite ι) (tree : Tree) (clock : Nat → Duration)
    {entry : SuiteEntry ι} {scope : Scope} {rest : List Scope} {timed : Timed ι} (run : Run)
    (same : timed.inspection = entry.timed.inspection)
    : (run.checkFlag.result.cancelled = true
        ∧ suite.runScopes tree clock entry.severity (scope :: rest) timed run
          = (timed, run.checkFlag))
      ∨ run.checkFlag.result.cancelled = false
        ∧ ∃ (next : Timed ι) (keeper : Timekeeper),
          next.inspection = entry.timed.inspection
          ∧ suite.runScopes tree clock entry.severity (scope :: rest) timed run
            = suite.runScopes tree clock entry.severity rest next
                (run.checkFlag.addPass (Inspection.profile entry.timed.inspection) scope
                  (Inspection.inspectScope entry.timed.inspection
                    { tree, scope, options := suite.optionsFor entry }
                    (some run.checkFlag.session.flag)) keeper) := by
  obtain ⟨inspection, resolved⟩ := timed
  cases same
  rw [runScopes]
  cases stops : run.checkFlag.result.cancelled with
  | true => exact .inl ⟨rfl, if_pos rfl⟩
  | false =>
      rw [if_neg Bool.false_ne_true]
      exact .inr
        ⟨rfl, { inspection := entry.timed.inspection, resolved := some _ }, _, rfl, rfl⟩

/-- The passes of one entry, by induction on the scopes: each does part of what it does alone, and
the run is told to stop if that is not all of it.
-/
theorem runScopes_partOf (suite : Suite ι) (tree : Tree) (clock : Nat → Duration)
    {entry : SuiteEntry ι} {scopes : List Scope} {timed : Timed ι} {run : Run}
    {due : AnalysisResult} (same : timed.inspection = entry.timed.inspection)
    (part : run.PartOf due)
    (each : ∀ scope ∈ scopes, suite.Interruptible tree ⟨entry, scope⟩)
    : (suite.runScopes tree clock entry.severity scopes timed run).2.PartOf
        (due.append (suite.resultOf tree (scopes.map (⟨entry, ·⟩)))) := by
  induction scopes generalizing timed run due with
  | nil => exact due.append_empty.symm ▸ part
  | cons scope rest ih =>
      have others := fun other later => each other (List.mem_cons_of_mem scope later)
      rcases runScopes_step suite tree clock run same with
        ⟨stops, step⟩ | ⟨goes, next, keeper, nextSame, step⟩
      · rw [step]
        exact part.checked.1.cut (.inl stops) _
      · rw [step, List.map_cons, ← List.singleton_append, resultOf_append,
          ← AnalysisResult.append_assoc, ← part.checked.2 goes]
        exact ih nextSame (addPass_partOf (each scope List.mem_cons_self _) keeper) others

/-- The passes of some entries, by induction on the entries. -/
theorem runEntries_partOf (suite : Suite ι) (tree : Tree) (clock : Nat → Duration)
    {entries : List (SuiteEntry ι)} {run : Run} {due : AnalysisResult} (part : run.PartOf due)
    (each : ∀ entry ∈ entries, entry.enabled → ∀ pass ∈ passesOf tree entry,
      suite.Interruptible tree pass)
    : (suite.runEntries tree clock entries run).2.PartOf
        (due.append
          (suite.resultOf tree ((entries.filter (·.enabled)).flatMap (passesOf tree)))) := by
  induction entries generalizing run due with
  | nil => exact due.append_empty.symm ▸ part
  | cons entry rest ih =>
      have others := fun other (later : other ∈ rest) =>
        each other (List.mem_cons_of_mem entry later)
      rw [runEntries]
      by_cases enabled : entry.enabled
      · rw [List.filter_cons_of_pos enabled, List.flatMap_cons, resultOf_append,
          ← AnalysisResult.append_assoc]
        cases stops : run.result.cancelled with
        | true =>
            rw [Bool.not_true, Bool.and_false]
            exact ih (part.cut (.inl stops) _) others
        | false =>
            have scopes := runScopes_partOf suite tree clock rfl part fun scope member =>
              each entry List.mem_cons_self enabled ⟨entry, scope⟩ (List.mem_map_of_mem member)
            rw [enabled, Bool.not_false, Bool.and_true]
            exact ih scopes others
      · rw [List.filter_cons_of_neg enabled, Bool.eq_false_iff.mpr enabled, Bool.false_and]
        exact ih part others

/-- A run whose passes can be stopped reports part of what comes of its planned passes, each run
alone, and if it does not say that it was cancelled, its result is all of that.
-/
theorem analyze_partOf {suite : Suite ι} {tree : Tree}
    (each : ∀ pass ∈ suite.plan tree, suite.Interruptible tree pass) (session : Session)
    (clock : Nat → Duration)
    : let result := (suite.analyze tree session clock).1
      result.diagnostics.Sublist (suite.resultOf tree (suite.plan tree)).diagnostics
      ∧ (result.cancelled = false
        → result = { suite.resultOf tree (suite.plan tree) with filesChecked := 1 }) := by
  have start : Run.PartOf { session } { } := ⟨.refl _, .inl rfl⟩
  have ran := runEntries_partOf suite tree clock start fun entry member enabled pass planned =>
    each pass (List.mem_flatMap.mpr ⟨entry, List.mem_filter.mpr ⟨member, enabled⟩, planned⟩)
  rw [AnalysisResult.empty_append, ← plan] at ran
  dsimp only [analyze]
  split
  · next stops => exact ⟨ran.reported, fun goes => absurd (goes.symm.trans stops) (by simp)⟩
  · exact ⟨ran.checked.1.reported, fun goes => by rw [ran.checked.2 goes]⟩

-----------------------------------------------------------------------------------------
-- Runs of the rules
-----------------------------------------------------------------------------------------

/-- A pass of a rule leaves a flag alone that nobody sets. -/
theorem keepsFlag (suite : Suite Rule) (tree : Tree) (pass : PlannedPass Rule)
    : suite.KeepsFlag tree pass :=
  pass.entry.timed.inspection.inspectScope_flag _

/-- A pass of a rule may be stopped. -/
theorem interruptible (suite : Suite Rule) (tree : Tree) (pass : PlannedPass Rule)
    : suite.Interruptible tree pass :=
  fun flag => pass.entry.timed.inspection.inspectScope_partOf _ (some flag)

/-- Whenever the flag of a run is set, before it, between two passes or inside one, the run reports
part of what it reports when nobody sets the flag, in order, and each diagnostic as it is there. If
the result does not say that the run was cancelled, it is the whole one.
-/
theorem analyze_cancelled (suite : Suite Rule) (tree : Tree) (session : Session)
    (clock : Nat → Duration)
    : let result := (suite.analyze tree session clock).1
      let whole := (suite.analyze tree { session with flag := { } } clock).1
      result.diagnostics.Sublist whole.diagnostics
      ∧ (result.cancelled = false → result = whole) := by
  have whole : (suite.analyze tree { session with flag := { } } clock).1
      = { suite.resultOf tree (suite.plan tree) with filesChecked := 1, cancelled := false } :=
    analyze_result rfl (fun pass _ => suite.keepsFlag tree pass) clock
  dsimp only
  rw [whole]
  exact analyze_partOf (fun pass _ => suite.interruptible tree pass) session clock

end Suite

end TreeLint
