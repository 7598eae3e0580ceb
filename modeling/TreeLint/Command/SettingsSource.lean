import TreeLint.Command.Listing
import TreeLint.Settings.Encoding
import TreeLint.Workspace.Basic

/-!
Where settings come from. The first of these that is there counts: the file named on the command
line, a file beside the trees, the file of the user.
-/

namespace TreeLint.Command

structure Environment where
  workspace : Workspace := { }
  /-- The path of the settings of the user and their text, if there are any. -/
  userSettings : Option (String × String) := none
  /-- The path of settings for when the command line names none. -/
  settingsPath : Option String := none
  deriving DecidableEq, Repr, Inhabited

inductive SettingsSource where
  /-- The file named on the command line, whether it is there or not. -/
  | named (path : String)
  /-- A file beside the trees. -/
  | project (path : String)
  | user (path text : String)
  | none
  deriving DecidableEq, Repr, Inhabited

namespace SettingsSource

def words : SettingsSource → String
  | .named path => path ++ " (--config)"
  | .project path => path ++ " (project)"
  | .user path _ => path ++ " (user)"
  | .none => "built-in defaults"

/-- The directory beside whose trees settings are looked for: the path, or that of a file. -/
def projectDirectory (workspace : Workspace) (path : String) : String :=
  if workspace.isFile path then parentPath path else path

def find (environment : Environment) (path : String) (named : Option String) : SettingsSource :=
  let directory := projectDirectory environment.workspace path
  let candidates := [settingsFile, "." ++ settingsFile].map (joinPath directory)
  match named, candidates.find? environment.workspace.isFile, environment.userSettings with
  | some path, _, _ => .named path
  | .none, some path, _ => .project path
  | .none, .none, some (path, text) => .user path text
  | .none, .none, .none => .none

/-- The settings from a source, if they can be read. -/
def load? (workspace : Workspace) : SettingsSource → Option Settings
  | .named path | .project path => (workspace.read path).toOption.bind Settings.read?
  | .user _ text => Settings.read? text
  | .none => some { }

end SettingsSource

end TreeLint.Command
