import Mathlib.Order.WellFounded
import TreeLint.Proofs.Rule.Remedies
import TreeLint.Suite.Basic

/-! Fixing in rounds: a suite of the built-in rules analyzes a tree, and all fixes of the report are
tried on it. Main result: whatever is stopped on the way, some round applies no fix, and neither
does any later one. A round starts with fixes that mend something, and the fixes behind them, which
may have lost their problems by then, at least do no harm.
-/

namespace TreeLint

-----------------------------------------------------------------------------------------
-- What every pass of a run keeps
-----------------------------------------------------------------------------------------

namespace Suite

section Passes

variable {ι : Type} [Inspection ι] {tree : Tree} {holds : AnalysisResult → Prop}

/-- Each look at the flag and each pass over the tree keeps what is asked of the result of a run. -/
structure KeptByPasses (ι : Type) [Inspection ι] (tree : Tree) (holds : AnalysisResult → Prop)
    : Prop where
  asked : ∀ run : Run, holds run.result → holds run.checkFlag.result
  added
    : ∀ (inspection : ι) (context : PassContext) (flag : Option CancelFlag) (run : Run)
        (keeper : Timekeeper),
        context.tree = tree
        → holds run.result
        → holds (run.addPass (Inspection.profile inspection) context.scope
            (Inspection.inspectScope inspection context flag) keeper).result

/-- The passes over the scopes of an entry keep what each pass and each look at the flag keeps, by
induction on the scopes.
-/
theorem runScopes_keeps (kept : KeptByPasses ι tree holds) (suite : Suite ι)
    (clock : Nat → Duration) (severity : Option Severity)
    (scopes : List Scope) (timed : Timed ι) {run : Run} (before : holds run.result)
    : holds (suite.runScopes tree clock severity scopes timed run).2.result := by
  induction scopes generalizing timed run with
  | nil => exact before
  | cons scope rest ih =>
      have goes := kept.asked run before
      rw [runScopes]
      split
      · exact goes
      · exact ih _ (kept.added timed.inspection
          { tree, scope, options := { interactive := suite.interactive, severity } } _ _ _ rfl goes)

/-- The passes of some entries keep what each pass and each look at the flag keeps, by induction on
the entries.
-/
theorem runEntries_keeps (kept : KeptByPasses ι tree holds) (suite : Suite ι)
    (clock : Nat → Duration) (entries : List (SuiteEntry ι)) {run : Run}
    (before : holds run.result)
    : holds (suite.runEntries tree clock entries run).2.result := by
  induction entries generalizing run with
  | nil => exact before
  | cons entry rest ih =>
      rw [runEntries]
      split
      · exact ih (runScopes_keeps kept suite clock entry.severity _ entry.timed before)
      · exact ih before

/-- The result of a run keeps what each pass and each look at the flag keeps, also where the run is
stopped; that a file was checked is told at the end.
-/
theorem analyze_keepsResult (kept : KeptByPasses ι tree holds) (start : holds { })
    (suite : Suite ι) (session : Session) (clock : Nat → Duration)
    : ∃ result,
        holds result ∧ (suite.analyze tree session clock).1 = { result with filesChecked := 1 } := by
  have before : holds (Run.result { session }) := start
  have ran := runEntries_keeps kept suite clock suite.entries before
  rw [analyze]
  dsimp only
  split
  · exact ⟨_, ran, rfl⟩
  · exact ⟨_, kept.asked _ ran, rfl⟩

/-- What a suite reports about a tree has what every pass over the tree reports, also where the run
is stopped.
-/
theorem analyze_keeps {holds : Diagnostic → Prop}
    (each : ∀ (inspection : ι) (context : PassContext) (flag : Option CancelFlag),
      context.tree = tree
      → ∀ diagnostic ∈ (Inspection.inspectScope inspection context flag).reported,
          holds diagnostic)
    (suite : Suite ι) (session : Session) (clock : Nat → Duration)
    : ∀ diagnostic ∈ (suite.analyze tree session clock).1.diagnostics, holds diagnostic := by
  have kept : KeptByPasses ι tree fun result =>
      ∀ diagnostic ∈ result.diagnostics, holds diagnostic := by
    refine ⟨fun _ before => before, fun inspection context flag run _ ofTree before => ?_⟩
    intro diagnostic member
    rcases List.mem_append.mp member with earlier | new
    · exact before diagnostic earlier
    · exact each inspection context flag ofTree diagnostic new
  obtain ⟨result, holds, same⟩ :=
    analyze_keepsResult kept (fun _ member => nomatch member) suite session clock
  rw [same]
  exact holds

/-- A run whose passes do not break down records no failure. -/
theorem analyze_sound
    (each : ∀ (inspection : ι) (context : PassContext) (flag : Option CancelFlag),
      context.tree = tree → (Inspection.inspectScope inspection context flag).breakdown = none)
    (suite : Suite ι) (session : Session) (clock : Nat → Duration)
    : (suite.analyze tree session clock).1.failures = [] := by
  have kept : KeptByPasses ι tree fun result => result.failures = [] := by
    refine ⟨fun _ before => before, fun inspection context flag run _ ofTree before => ?_⟩
    refine List.append_eq_nil_iff.mpr ⟨before, ?_⟩
    rw [each inspection context flag ofTree]
    rfl
  obtain ⟨result, sound, same⟩ := analyze_keepsResult kept rfl suite session clock
  rw [same]
  exact sound

end Passes

/-- What a suite of rules reports with a fix has the problem that the fix is for. -/
theorem mends_of_analyze {suite : Suite Rule} {tree : Tree} (linked : tree.Linked)
    {session : Session} {clock : Nat → Duration} {diagnostic : Diagnostic}
    (member : diagnostic ∈ (suite.analyze tree session clock).1.diagnostics) {fix : Fix}
    (offered : diagnostic.fix = some fix)
    : fix.Mends tree diagnostic.anchor := by
  have each (rule : Rule) (context : PassContext) (flag : Option CancelFlag)
      (same : context.tree = tree)
      : ∀ diagnostic ∈ (Inspection.inspectScope rule context flag).reported,
          ∀ fix, diagnostic.fix = some fix → fix.Mends tree diagnostic.anchor := by
    subst same
    intro diagnostic reported fix offered
    obtain ⟨inner, shown, reports⟩ := Rule.inspectScope_provenance reported
    refine Rule.mends_of_mayReport linked shown reports ?_
    obtain ⟨_, _, _, _, _, rfl⟩ := reports
    rw [Profile.diagnose] at offered
    dsimp only at offered
    split at offered
    · cases offered
    · exact offered
  exact analyze_keeps each suite session clock diagnostic member fix offered

end Suite

-----------------------------------------------------------------------------------------
-- Trying the fixes of a report
-----------------------------------------------------------------------------------------

namespace FixSummary

/-- What trying some fixes comes to: the burden does not grow, and where no fix is applied, the tree
is exactly what it was.
-/
structure Settles (before after : FixSummary × Tree) : Prop where
  coherent : after.2.Coherent
  lighter : after.2.burden ≤ before.2.burden
  counts : before.1.applied ≤ after.1.applied
  idle : after.1.applied = before.1.applied → after.2 = before.2

/-- Trying a fix leaves the tree as it was and counts nothing, or applies the fix and counts it. -/
theorem step_cases {state : FixSummary × Tree} (coherent : state.2.Coherent)
    (diagnostic : Diagnostic)
    : (step state diagnostic).1.applied = state.1.applied ∧ (step state diagnostic).2 = state.2
      ∨ ∃ fix,
          diagnostic.fix = some fix
          ∧ (fix.applyAt diagnostic.anchor).apply state.2 = (.ok (), (step state diagnostic).2)
          ∧ (step state diagnostic).1.applied = state.1.applied + 1 := by
  obtain ⟨summary, tree⟩ := state
  rw [step]
  rcases Fix.applyFix_cases coherent diagnostic with
    ⟨error, failed⟩ | ⟨fix, after, offered, applied, succeeded⟩
  · dsimp only at failed ⊢
    rw [failed]
    split <;> exact Or.inl ⟨rfl, rfl⟩
  · dsimp only at applied succeeded ⊢
    rw [applied, if_neg (by simp [offered])]
    exact Or.inr ⟨fix, offered, succeeded, rfl⟩

/-- Fixes that were offered earlier settle, by induction on the report. -/
theorem foldl_step_settles {diagnostics : List Diagnostic} (state : FixSummary × Tree)
    (coherent : state.2.Coherent)
    (fits : ∀ diagnostic ∈ diagnostics, ∀ fix,
      diagnostic.fix = some fix → fix.Fits state.2 diagnostic.anchor)
    : Settles state (diagnostics.foldl step state) := by
  induction diagnostics generalizing state with
  | nil => exact ⟨coherent, le_rfl, le_rfl, fun _ => rfl⟩
  | cons diagnostic rest ih =>
      have later (ages : state.2.AgesTo (step state diagnostic).2) : ∀ other ∈ rest, ∀ fix,
          other.fix = some fix → fix.Fits (step state diagnostic).2 other.anchor :=
        fun other member fix offered =>
          (fits other (List.mem_cons_of_mem diagnostic member) fix offered).later ages
      rw [List.foldl_cons]
      rcases step_cases coherent diagnostic with ⟨count, same⟩ | ⟨fix, offered, succeeded, count⟩
      · have others := ih _ (same ▸ coherent) fun other member fix offered =>
          same ▸ fits other (List.mem_cons_of_mem diagnostic member) fix offered
        exact ⟨others.coherent, same ▸ others.lighter, count ▸ others.counts,
          fun idle => (others.idle (idle.trans count.symm)).trans same⟩
      · have now := fits diagnostic List.mem_cons_self fix offered
        obtain ⟨ages, lighter⟩ := now.settles coherent succeeded
        have kept := Fix.coherent_of_applyAt coherent succeeded
        have others := ih _ kept (later ages)
        have counts := others.counts
        exact ⟨others.coherent, others.lighter.trans lighter, by omega, fun idle => by omega⟩

/-- Fixes for problems of the tree lighten the burden if one of them is applied, by induction on the
report: those behind the first that is applied at least settle.
-/
theorem foldl_step_improves {diagnostics : List Diagnostic} (state : FixSummary × Tree)
    (coherent : state.2.Coherent)
    (mends : ∀ diagnostic ∈ diagnostics, ∀ fix,
      diagnostic.fix = some fix → fix.Mends state.2 diagnostic.anchor)
    (applied : (diagnostics.foldl step state).1.applied ≠ state.1.applied)
    : (diagnostics.foldl step state).2.burden < state.2.burden := by
  induction diagnostics generalizing state with
  | nil => exact absurd rfl applied
  | cons diagnostic rest ih =>
      have others := fun other (member : other ∈ rest) fix offered =>
        mends other (List.mem_cons_of_mem diagnostic member) fix offered
      rw [List.foldl_cons] at applied ⊢
      rcases step_cases coherent diagnostic with ⟨count, same⟩ | ⟨fix, offered, succeeded, _⟩
      · have smaller := ih _ (same ▸ coherent) (fun other member => same ▸ others other member)
          (count ▸ applied)
        exact same ▸ smaller
      · have now := mends diagnostic List.mem_cons_self fix offered
        have ages := (now.fits.settles coherent succeeded).1
        have kept := Fix.coherent_of_applyAt coherent succeeded
        have settled := foldl_step_settles _ kept fun other member fix offered =>
          (others other member fix offered).fits.later ages
        exact settled.lighter.trans_lt (now.improves coherent succeeded)

end FixSummary

-----------------------------------------------------------------------------------------
-- Rounds
-----------------------------------------------------------------------------------------

/-- A round of fixing: a suite, with the session and the clock that it runs with. -/
structure FixRound where
  suite : Suite Rule
  session : Session := { }
  clock : Nat → Duration := fun _ => .zero

namespace FixRound

/-- Analyzes a tree and tries all fixes of the report on it. -/
def run (round : FixRound) (tree : Tree) : FixSummary × Tree :=
  applyAll (round.suite.analyze tree round.session round.clock).1.diagnostics tree

/-- A round does not add to the burden of a tree. It lightens the burden if it applies any fix, and
leaves the tree as it was if not.
-/
theorem run_outcome (round : FixRound) {tree : Tree} (coherent : tree.Coherent)
    : (round.run tree).2.Coherent
      ∧ (round.run tree).2.burden ≤ tree.burden
      ∧ ((round.run tree).1.applied ≠ 0 → (round.run tree).2.burden < tree.burden)
      ∧ ((round.run tree).1.applied = 0 → (round.run tree).2 = tree) := by
  have mends : ∀ diagnostic ∈
        (round.suite.analyze tree round.session round.clock).1.diagnostics.reverse, ∀ fix,
      diagnostic.fix = some fix → fix.Mends tree diagnostic.anchor :=
    fun _ member _ offered =>
      Suite.mends_of_analyze coherent.toLinked (List.mem_reverse.mp member) offered
  have settled := FixSummary.foldl_step_settles ({ }, tree) coherent
    fun diagnostic member fix offered => (mends diagnostic member fix offered).fits
  exact ⟨settled.coherent, settled.lighter,
    FixSummary.foldl_step_improves ({ }, tree) coherent mends, settled.idle⟩

end FixRound

namespace Tree

/-- The tree before each of some rounds. -/
def beforeRound (tree : Tree) (rounds : Nat → FixRound) : Nat → Tree
  | 0 => tree
  | round + 1 => ((rounds round).run (tree.beforeRound rounds round)).2

/-- Every round starts from a coherent tree, by induction on the rounds. -/
theorem Coherent.beforeRound {tree : Tree} (coherent : tree.Coherent) (rounds : Nat → FixRound)
    (round : Nat)
    : (tree.beforeRound rounds round).Coherent := by
  induction round with
  | zero => exact coherent
  | succ round ih => exact ((rounds round).run_outcome ih).1

/-- Whatever suites of rules run in the rounds, for example the same in all of them, and wherever a
run is stopped: some round applies no fix, nor does any later one, and the tree stays what it is
then. The burden of the trees never grows, so it is least before some round, and no later one can
lighten it.
-/
theorem Reachable.rounds_converge {tree : Tree} (reachable : tree.Reachable)
    (rounds : Nat → FixRound)
    : ∃ last, ∀ later, last ≤ later →
        ((rounds later).run (tree.beforeRound rounds later)).1.applied = 0
        ∧ tree.beforeRound rounds later = tree.beforeRound rounds last := by
  let burdens (round : Nat) := (tree.beforeRound rounds round).burden
  have outcome (round : Nat) :=
    (rounds round).run_outcome (reachable.coherent.beforeRound rounds round)
  have lighter : Antitone burdens := antitone_nat_of_succ_le fun round => (outcome round).2.1
  obtain ⟨_, ⟨last, rfl⟩, least⟩ :=
    WellFounded.has_min wellFounded_lt (Set.range burdens) ⟨_, 0, rfl⟩
  have idle (later : Nat) (behind : last ≤ later)
      : ((rounds later).run (tree.beforeRound rounds later)).1.applied = 0 := by
    by_contra applied
    have smaller := (outcome later).2.2.1 applied
    exact least _ ⟨later + 1, rfl⟩ (smaller.trans_le (lighter behind))
  refine ⟨last, fun later behind => ⟨idle later behind, ?_⟩⟩
  induction later, behind using Nat.le_induction with
  | base => rfl
  | succ later behind ih => exact ((outcome later).2.2.2 (idle later behind)).trans ih

end Tree

/-- Rounds in which only the rule about shared declarations runs. -/
def declarationRounds : Nat → FixRound :=
  fun _ =>
    { suite :=
        { entries := [{ timed := { inspection := .multipleDeclaration }, enabled := true }]
          interactive := true } }

/-- The first round splits the declaration and gives the field its type, and then the tree stays as
it is after some round.
-/
theorem nestedDeclarations_settle
    : ((declarationRounds 0).run (Tree.ofDocument nestedDeclarations)).1.applied = 2
      ∧ ∃ last, ∀ later, last ≤ later →
          ((declarationRounds later).run
            ((Tree.ofDocument nestedDeclarations).beforeRound declarationRounds later)).1.applied = 0
          ∧ (Tree.ofDocument nestedDeclarations).beforeRound declarationRounds later
            = (Tree.ofDocument nestedDeclarations).beforeRound declarationRounds last :=
  ⟨by decide, (Tree.Reachable.loaded nestedDeclarations).rounds_converge declarationRounds⟩

end TreeLint
