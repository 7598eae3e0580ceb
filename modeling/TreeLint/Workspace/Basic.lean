/-!
Workspaces: the text files below one directory. A directory is there because a file lies below it,
and the top is always there.

A path is a text whose names are separated by slashes. An empty name and a single dot stay where
they are, two dots go up, and each of them, like every further name, needs a directory to start
from. What lies above the top is not part of the workspace.
-/

namespace TreeLint

/-- The text files below a directory, each with the names on the way to it. -/
structure Workspace where
  files : List (List String × String) := []
  deriving DecidableEq, Repr, Inhabited

/-- Why there is nothing at the end of a path, or not what was looked for. -/
inductive PathError where
  | missing
  /-- The path leads through a file. -/
  | notDirectory
  | isDirectory
  deriving DecidableEq, Repr, Inhabited

def PathError.message : PathError → String
  | .missing => "No such file or directory (os error 2)"
  | .notDirectory => "Not a directory (os error 20)"
  | .isDirectory => "Is a directory (os error 21)"

/-! ## Paths -/

def pathNames (path : String) : List String :=
  (path.toList.splitOnP (· == '/')).map String.ofList

def joinPath (directory name : String) : String :=
  if directory.isEmpty || directory.endsWith "/" then directory ++ name
  else directory ++ "/" ++ name

/-- A path, written backwards, without slashes and single dots at its end. A path that is a dot
stays.
-/
def trimPath : List Char → List Char
  | '/' :: rest => trimPath rest
  | '.' :: '/' :: rest => trimPath rest
  | path => path

def parentPath (path : String) : String :=
  String.ofList (trimPath (path.toList.reverse.dropWhile (· != '/'))).reverse

/-- The file is named with an extension, and more than that. -/
def hasExtension (extension name : String) : Bool :=
  name.endsWith ("." ++ extension) && extension.length + 1 < name.length

namespace Workspace

/-! ## What is there -/

def ofFiles (files : List (String × String)) : Workspace :=
  { files := files.map fun (path, text) =>
      ((pathNames path).filter fun name => name != "" && name != ".", text) }

def hasDirectory (workspace : Workspace) (names : List String) : Bool :=
  names.isEmpty
    || workspace.files.any fun (file, _) =>
      names.isPrefixOf file && names.length < file.length

def hasFile (workspace : Workspace) (names : List String) : Bool :=
  (workspace.files.lookup names).isSome

def has (workspace : Workspace) (names : List String) : Bool :=
  workspace.hasDirectory names || workspace.hasFile names

/-- The names to which further names of a path lead. The last one need not be there. -/
def follow (workspace : Workspace)
    : List String → List String → Except PathError (List String)
  | place, [] => .ok place
  | place, name :: rest =>
      if workspace.hasFile place then .error .notDirectory
      else if !workspace.hasDirectory place then .error .missing
      else if name == "" || name == "." then workspace.follow place rest
      else if name != ".." then workspace.follow (place ++ [name]) rest
      else if place.isEmpty then .error .missing
      else workspace.follow place.dropLast rest

/-- The names to which a path leads. An empty path leads nowhere, and one that starts at a slash
leads out.
-/
def resolve (workspace : Workspace) (path : String) : Except PathError (List String) :=
  if path.isEmpty || path.startsWith "/" then .error .missing
  else workspace.follow [] (pathNames path)

def find (workspace : Workspace) (path : String) : Except PathError (List String) := do
  let names ← workspace.resolve path
  if workspace.has names then return names else throw .missing

def read (workspace : Workspace) (path : String) : Except PathError String := do
  match workspace.files.lookup (← workspace.find path) with
  | some text => return text
  | none => throw .isDirectory

def isFile (workspace : Workspace) (path : String) : Bool :=
  (workspace.read path).isOk

/-! ## Writing -/

def put (names : List String) (text : String)
    : List (List String × String) → List (List String × String)
  | [] => [(names, text)]
  | (file, old) :: rest =>
      if file = names then (file, text) :: rest else (file, old) :: put names text rest

def write (workspace : Workspace) (path text : String) : Except PathError Workspace := do
  let names ← workspace.resolve path
  if workspace.hasDirectory names then throw .isDirectory
  return { files := put names text workspace.files }

/-- The files, by path, that are not as they were in another workspace. -/
def changes (workspace before : Workspace) : List (String × String) :=
  (workspace.files.filter fun (names, text) => before.files.lookup names != some text).map
    fun (names, text) => ("/".intercalate names, text)

end Workspace

end TreeLint
