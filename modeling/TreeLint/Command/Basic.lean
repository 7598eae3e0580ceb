import TreeLint.Command.Report
import TreeLint.Command.SettingsSource
import TreeLint.Fix.Apply
import TreeLint.Suite.Basic
import TreeLint.Tree.Loading
import TreeLint.Workspace.Ignore

/-!
The commands: checking trees, fixing one, listing rules and writing settings to start from. A
command turns a workspace into another one, with what is printed and how the program ends.
-/

namespace TreeLint.Command

inductive CommandError where
  | settings (source : SettingsSource)
  | suite (error : SuiteError)
  | excludePattern (pattern : String)
  | root (path : String) (error : PathError)
  | read (path : String)
  | parse (path : String)
  | readOnly (path : String)
  | write (path : String)
  | settingsExist
  /-- The settings to start from cannot be written. -/
  | unwritableSettings (error : PathError)
  deriving DecidableEq, Repr, Inhabited

def CommandError.message : CommandError → String
  | .settings source => "Failed to load inspection settings from " ++ source.words
  | .suite _ => "Failed to build analyzer"
  | .excludePattern pattern => "Invalid exclude pattern: " ++ pattern
  | .root path error =>
      path ++ ": IO error for operation on " ++ path ++ ": " ++ error.message
  | .read path => "Failed to read " ++ path
  | .parse path => "Failed to parse tree " ++ path
  | .readOnly path => path ++ " is read-only"
  | .write path => "Failed to write " ++ path
  | .settingsExist =>
      "Configuration file already exists at " ++ settingsFile ++ ". Use --force to overwrite."
  | .unwritableSettings error => error.message

structure Completion where
  /-- The files as they are left. -/
  workspace : Workspace
  printed : String
  /-- The number of tree files that were passed over because they hold no tree. -/
  skipped : Nat := 0
  /-- There were problems of the highest severity. -/
  foundErrors : Bool := false
  deriving DecidableEq, Repr, Inhabited

/-! ## Trees and suites -/

/-- The tree in the text of a file. A tree that names no path takes that of its file. -/
def treeOfFile? (path text : String) : Option Tree :=
  (Tree.read? text).map fun tree => if tree.path.isSome then tree else tree.withPath path

def readTree (workspace : Workspace) (path : String) : Except CommandError Tree :=
  match workspace.read path with
  | .error _ => .error (.read path)
  | .ok text =>
      match treeOfFile? path text with
      | some tree => .ok tree
      | none => .error (.parse path)

def readSettings (environment : Environment) (path : String) (named : Option String)
    : Except CommandError Settings :=
  let source := SettingsSource.find environment path named
  match source.load? environment.workspace with
  | some settings => .ok settings
  | none => .error (.settings source)

def buildSuite (options : SuiteOptions) : Except CommandError (Suite Rule) :=
  (Suite.build Rule.all options).mapError .suite

/-! ## Checking -/

def readExcludes (patterns : List String) : Except CommandError (List Glob) :=
  patterns.mapM fun pattern =>
    match Glob.read? pattern with
    | some glob => .ok glob
    | none => .error (.excludePattern pattern)

/-- The path as such, or below the root of the walk, has one of the patterns. -/
def isExcluded (excludes : List Glob) (relative path : String) : Bool :=
  excludes.any fun glob => glob.accepts relative.toList || glob.accepts path.toList

/-- The tree files below a directory. A path that is a hyphen stands for the standard input, where
no tree file is.
-/
def discover (workspace : Workspace) (settings : AnalysisSettings) (root : String)
    : Except CommandError (List String) := do
  let excludes ← readExcludes settings.exclude
  if root == "-" then return []
  match workspace.find root with
  | .error error => throw (.root root error)
  | .ok place =>
      let files := workspace.filesBelow settings.respectIgnoreFiles place
      let trees := files.filter fun names => hasExtension "json" (names.getLastD "")
      let relative := trees.map ("/".intercalate ·)
      return (relative.filter fun name => !isExcluded excludes name (joinPath root name)).map
        (joinPath root)

/-- The tree files at a path. A file counts whatever its name is. -/
def treeFiles (workspace : Workspace) (settings : AnalysisSettings) (path : String)
    : Except CommandError (List String) :=
  if workspace.isFile path then .ok [path] else discover workspace settings path

def checkFile? (suite : Suite Rule) (workspace : Workspace) (path : String)
    : Option FileReport :=
  (readTree workspace path).toOption.map fun tree =>
    { path := tree.path.getD path, result := (suite.analyze tree { }).1 }

def check (environment : Environment) (named : Option String) (options : CheckOptions)
    : Except CommandError Completion := do
  let workspace := environment.workspace
  let settings ← readSettings environment options.path named
  let analysis := { settings.analysis with exclude := settings.analysis.exclude ++ options.exclude }
  let suite ← buildSuite
    { settings
      interactive := if options.interactive then some true else none
      enablesAll := options.all
      only := options.rules }
  let files ← treeFiles workspace analysis options.path
  let reports := files.filterMap (checkFile? suite workspace)
  return { workspace
           printed := printReports reports options.format
           skipped := files.length - reports.length
           foundErrors := reports.any (·.result.hasErrors) }

/-! ## Fixing -/

/-- Applies the fixes for everything that a suite reports on a tree. -/
def fixTree (suite : Suite Rule) (tree : Tree) : FixSummary × Tree :=
  applyAll (suite.analyze tree { }).1.diagnostics tree

/-- What is printed about the fixes of a tree. -/
def summaryLine (summary : FixSummary) (path : String) : String :=
  "Applied " ++ toString summary.applied ++ " fix(es), skipped " ++ toString summary.skipped
    ++ " in " ++ path ++ "\n"

def fix (environment : Environment) (named : Option String) (options : FixOptions)
    : Except CommandError Completion := do
  let settings ← readSettings environment options.file named
  let suite ← buildSuite { settings, interactive := some true, only := options.rules }
  let tree ← readTree environment.workspace options.file
  if !tree.writable then throw (.readOnly options.file)
  let (summary, tree) := fixTree suite tree
  let path := options.output.getD options.file
  match environment.workspace.write path tree.render with
  | .ok workspace => return { workspace, printed := summaryLine summary path }
  | .error _ => throw (.write path)

/-! ## Running a command -/

def init (workspace : Workspace) (force : Bool) : Except CommandError Completion := do
  if workspace.has [settingsFile] && !force then throw .settingsExist
  match workspace.write settingsFile startingSettings with
  | .ok workspace => return { workspace, printed := startingAdvice }
  | .error error => throw (.unwritableSettings error)

def runTask (environment : Environment) (invocation : Invocation)
    : Except CommandError Completion :=
  let named := invocation.settingsPath.or environment.settingsPath
  match invocation.task with
  | .check options => check environment named options
  | .fix options => fix environment named options
  | .listRules => .ok { workspace := environment.workspace, printed := ruleList }
  | .init force => init environment.workspace force

structure Exit where
  /-- The status that the caller sees. -/
  status : UInt32 := 0
  printed : String := ""
  error : Option String := none
  skipped : Nat := 0
  workspace : Workspace
  deriving DecidableEq, Repr, Inhabited

/-- Runs the program. Arguments that are not understood end it with the status two, and errors of a
command or of the trees with one.
-/
def run (environment : Environment) (arguments : List String) : Exit :=
  let workspace := environment.workspace
  match readArguments arguments with
  | .error .misuse => { status := 2, workspace }
  | .error .help => { printed := usage, workspace }
  | .error .version => { printed := versionLine, workspace }
  | .ok invocation =>
      match runTask environment invocation with
      | .error error => { status := 1, error := some error.message, workspace }
      | .ok completion =>
          { status := if completion.foundErrors then 1 else 0
            printed := completion.printed
            skipped := completion.skipped
            workspace := completion.workspace }

end TreeLint.Command
