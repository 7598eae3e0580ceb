import TreeLint.Command.Basic

/-!
The program. It reads the text files below the working directory, runs the command on them and
writes those that the command changed.
-/

namespace TreeLint

/-- The text files below a directory, each with its path from the top. Other files are left out. -/
partial def readFilesBelow (directory : String) : IO (List (String × String)) := do
  let entries ← ((← IO.currentDir) / directory).readDir
  let files ← entries.toList.mapM fun entry => do
    let path := joinPath directory entry.fileName
    if ← entry.path.isDir then
      readFilesBelow path
    else
      try
        return [(path, ← IO.FS.readFile entry.path)]
      catch _ =>
        return []
  return files.flatten

def userDirectory? : IO (Option String) := do
  match ← IO.getEnv "GADGETS_CONFIG_DIR" with
  | some directory => return some directory
  | none => return (← IO.getEnv "HOME").map (joinPath · ".gadgets")

/-- The settings of the user with their path, if they can be read. -/
def readUserSettings? : IO (Option (String × String)) := do
  match ← userDirectory? with
  | none => return none
  | some directory =>
      let path := joinPath directory "config.toml"
      try
        return some (path, ← IO.FS.readFile path)
      catch _ =>
        return none

end TreeLint

open TreeLint in
def main (arguments : List String) : IO UInt32 := do
  let workspace := Workspace.ofFiles (← readFilesBelow "")
  let environment : Command.Environment :=
    { workspace
      userSettings := ← readUserSettings?
      settingsPath := ← IO.getEnv "GADGETS_CONFIG" }
  let exit := Command.run environment arguments
  for (path, text) in exit.workspace.changes workspace do
    IO.FS.writeFile path text
  IO.print exit.printed
  if let some error := exit.error then
    IO.eprintln ("Error: " ++ error)
  if exit.status = 2 then
    IO.eprint Command.usage
  return exit.status
