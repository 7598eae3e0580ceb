import TreeLint.Settings.Basic
import TreeLint.Suite.Result
import TreeLint.Timing.Timed

/-!
A suite of inspections that runs over trees. Each inspection runs once for each scope that it asks
for. A pass that breaks down does not disturb the others, and cancellation is looked at before each
pass and after the last.
-/

namespace TreeLint

structure SuiteEntry (ι : Type) where
  timed : Timed ι
  enabled : Bool := false
  severity : Option Severity := none
  deriving Repr, Inhabited

structure Suite (ι : Type) where
  /-- The inspections in the order in which they run. Their short names differ. -/
  entries : List (SuiteEntry ι)
  interactive : Bool
  /-- Every inspection runs unless it is turned off. -/
  enablesAll : Bool := false
  /-- The names of the inspections that run, if these are the only ones. -/
  only : Option (List String) := none
  deriving Repr, Inhabited

/-- Why a suite cannot be put together. -/
inductive SuiteError where
  | duplicateShortName (name : String)
  | unknownInspection (name : String)
  deriving DecidableEq, Repr, Inhabited

def SuiteError.message : SuiteError → String
  | .duplicateShortName name => "Duplicate inspection short name: " ++ name
  | .unknownInspection name => "Unknown inspection: " ++ name

/-- What a suite is put together from, beside its inspections. -/
structure SuiteOptions where
  settings : Settings := { }
  /-- Decides about the session in the place of the settings. -/
  interactive : Option Bool := none
  enablesAll : Bool := false
  only : Option (List String) := none
  deriving Repr, Inhabited

/-- What a run shares with others: the flag that stops it and the keeper of its times. -/
structure Session where
  flag : CancelFlag := { }
  keeper : Timekeeper := { }
  deriving Repr, Inhabited

def firstRepeated? : List String → List String → Option String
  | _, [] => none
  | seen, name :: rest =>
      if seen.contains name then some name else firstRepeated? (name :: seen) rest

namespace Suite

variable {ι : Type} [Inspection ι]

/-- What is known of the inspections of a suite without running them. -/
def profiles (suite : Suite ι) : List Profile :=
  suite.entries.map (Inspection.profile ·.timed.inspection)

def enabledProfiles (suite : Suite ι) : List Profile :=
  (suite.entries.filter (·.enabled)).map (Inspection.profile ·.timed.inspection)

/-! ## Putting a suite together -/

/-- An inspection runs: it is one of the only ones, or else the settings, the suite or the
inspection itself say so, in this order.
-/
def decides (suite : Suite ι) (settings : Settings) (profile : Profile) : Bool :=
  match suite.only with
  | some names => names.any profile.answersTo
  | none =>
      (settings.enabled? profile.shortName profile.id).getD
        (suite.enablesAll || profile.enabledByDefault)

def reconfigureEntry (suite : Suite ι) (settings : Settings) (entry : SuiteEntry ι)
    : SuiteEntry ι :=
  let profile := Inspection.profile entry.timed.inspection
  let part := (settings.section? profile.shortName profile.id).getD { }
  { timed := entry.timed.change (Inspection.configure · part)
    enabled := suite.decides settings profile
    severity := settings.severity? profile.shortName profile.id }

/-- The suite with the given settings. Whether the session is interactive stays as it is. -/
def reconfigure (suite : Suite ι) (settings : Settings) : Suite ι :=
  { suite with entries := suite.entries.map (suite.reconfigureEntry settings) }

/-- The error in what a suite would be put together from. -/
def error? (profiles : List Profile) (only : List String) : Option SuiteError :=
  match firstRepeated? [] (profiles.map (·.shortName)) with
  | some name => some (.duplicateShortName name)
  | none =>
      (only.find? fun name => !profiles.any (·.answersTo name)).map .unknownInspection

def build (inspections : List ι) (options : SuiteOptions) : Except SuiteError (Suite ι) :=
  match error? (inspections.map Inspection.profile) (options.only.getD []) with
  | some error => .error error
  | none =>
      let suite : Suite ι :=
        { entries := inspections.map fun inspection => { timed := { inspection } }
          interactive := options.interactive.getD options.settings.analysis.interactive
          enablesAll := options.enablesAll
          only := options.only }
      .ok (suite.reconfigure options.settings)

/-! ## Running a suite -/

structure Run where
  result : AnalysisResult := { }
  session : Session
  deriving Repr, Inhabited

namespace Run

/-- Looks at the flag and ends the run if it is set. -/
def checkFlag (run : Run) : Run :=
  let (isSet, flag) := run.session.flag.ask
  { result := { run.result with cancelled := run.result.cancelled || isSet }
    session := { run.session with flag } }

def addPass (run : Run) (profile : Profile) (scope : Scope) (state : PassState)
    (keeper : Timekeeper)
    : Run :=
  let failures := state.breakdown.toList.map fun breakdown =>
    { rule := profile.shortName, scope := scope.root, message := breakdown.message }
  { result :=
      run.result.append { diagnostics := state.reported, failures := failures, passes := 1 }
    session := { flag := state.flag.getD run.session.flag, keeper } }

end Run

/-- Runs an inspection over scopes, until the flag is set. The time of each run is that of the
clock, which is asked with the number of samples taken before.
-/
def runScopes (suite : Suite ι) (tree : Tree) (clock : Nat → Duration)
    (severity : Option Severity)
    : List Scope → Timed ι → Run → Timed ι × Run
  | [], timed, run => (timed, run)
  | scope :: rest, timed, run =>
      let run := run.checkFlag
      if run.result.cancelled then
        (timed, run)
      else
        let options := { interactive := suite.interactive, severity }
        let keeper := run.session.keeper
        let (state, timed, keeper) :=
          timed.run { tree, scope, options } (some run.session.flag) keeper
            (clock keeper.samples.length)
        let profile := Inspection.profile timed.inspection
        suite.runScopes tree clock severity rest timed (run.addPass profile scope state keeper)

/-- Runs the entries that are enabled, one after the other. -/
def runEntries (suite : Suite ι) (tree : Tree) (clock : Nat → Duration)
    : List (SuiteEntry ι) → Run → List (SuiteEntry ι) × Run
  | [], run => ([], run)
  | entry :: rest, run =>
      if entry.enabled && !run.result.cancelled then
        let scopes := Scope.collect tree (Inspection.profile entry.timed.inspection).scopes
        let (timed, run) := suite.runScopes tree clock entry.severity scopes entry.timed run
        let (entries, run) := suite.runEntries tree clock rest run
        ({ entry with timed } :: entries, run)
      else
        let (entries, run) := suite.runEntries tree clock rest run
        (entry :: entries, run)

/-- Analyzes a tree. Beside the result this gives the suite, which now knows whether runs are
timed, and the session as it is left.
-/
def analyze (suite : Suite ι) (tree : Tree) (session : Session)
    (clock : Nat → Duration := fun _ => .zero)
    : AnalysisResult × Suite ι × Session :=
  let (entries, run) := suite.runEntries tree clock suite.entries { session }
  let run := if run.result.cancelled then run else run.checkFlag
  ({ run.result with filesChecked := 1 }, { suite with entries }, run.session)

/-- The suite as it is printed for a reader of logs. -/
def logText (suite : Suite ι) : String :=
  "Analyzer \x7b rules: " ++ toString suite.entries.length ++ ", enabled: "
    ++ toString suite.enabledProfiles.length ++ ", interactive: " ++ toString suite.interactive
    ++ ", .. \x7d"

end Suite

end TreeLint
