import TreeLint.Text.Basic
import TreeLint.Workspace.Basic
import TreeLint.Workspace.Glob

/-!
The files of a workspace, and those of them that say what is to be ignored. A line is a glob for what lies below the directory of the
file, and of several lines that speak of an entry the last one counts. A line without a slash,
except at its end, speaks of names at any depth.
-/

namespace TreeLint

/-! ## Lines -/

structure IgnoreLine where
  glob : Glob
  restores : Bool := false
  /-- The line speaks of directories only. -/
  directoriesOnly : Bool := false
  deriving DecidableEq, Repr, Inhabited

namespace IgnoreLine

/-- Reads the rest of a class. The ranges so far stand in the reverse order, and the last of them
may be open at its end.
-/
def readRanges? (isFirst isOpen : Bool) (ranges : List (Char × Char))
    : List Char → Option (List (Char × Char) × List Char)
  | [] => none
  | c :: rest =>
      if c = ']' && !isFirst then
        some (if isOpen then ('-', '-') :: ranges else ranges, rest)
      else if c = '-' && !isFirst && !isOpen then
        readRanges? false true ranges rest
      else
        match isOpen, ranges with
        | true, (low, _) :: ranges =>
            if c < low then none else readRanges? false false ((low, c) :: ranges) rest
        | _, ranges => readRanges? false false ((c, c) :: ranges) rest

/-- The class behind an open bracket, and the text behind it. -/
def readClass? : List Char → Option (GlobItem × List Char)
  | '!' :: text | '^' :: text =>
      (readRanges? true false [] text).map fun (ranges, rest) => (.oneOf true ranges, rest)
  | text =>
      (readRanges? true false [] text).map fun (ranges, rest) => (.oneOf false ranges, rest)

/-- Reads the items of a glob, with a bound on their number. Two stars stand for directories if they
make up a whole name of the path, and for any part of a name otherwise.
-/
def readItems? : Nat → (afterSlash : Bool) → List Char → Option Glob
  | _, _, [] => some []
  | 0, _, _ => none
  | _ + 1, _, ['\\'] => none
  | bound + 1, _, '\\' :: c :: rest => (.char c :: ·) <$> readItems? bound (c == '/') rest
  | bound + 1, _, '?' :: rest => (.any false :: ·) <$> readItems? bound false rest
  | bound + 1, _, '[' :: rest => do
      let (item, rest) ← readClass? rest
      (item :: ·) <$> readItems? bound false rest
  | _ + 1, true, ['*', '*'] => some [.run true]
  | bound + 1, true, '*' :: '*' :: '/' :: rest =>
      (.directories :: ·) <$> readItems? bound true rest
  | bound + 1, _, '*' :: rest => (.run false :: ·) <$> readItems? bound false rest
  | bound + 1, _, c :: rest => (.char c :: ·) <$> readItems? bound (c == '/') rest

/-- The line without blanks at its end. One that ends in an escaped space keeps it. -/
def trim (line : List Char) : List Char :=
  if ['\\', ' '].isSuffixOf line then line else Text.dropBlanksRight line

/-- The text without a slash at its end, and whether there was one. -/
def cutSlash (text : List Char) : List Char × Bool :=
  match text.reverse with
  | '/' :: '\\' :: rest => (rest.reverse, true)
  | '/' :: rest => (rest.reverse, true)
  | _ => (text, false)

/-- The pattern of a line for whole paths. -/
def spread (isAnchored : Bool) (text : List Char) : List Char :=
  let anywhere := ['*', '*', '/'].isPrefixOf text || text == ['*', '*']
  let text :=
    if isAnchored || text.contains '/' || anywhere then text else ['*', '*', '/'] ++ text
  if ['/', '*', '*'].isSuffixOf text then text ++ ['/', '*'] else text

/-- Reads what a line says behind the mark that it restores something. -/
def readBody? (restores isAnchored : Bool) (text : List Char) : Option IgnoreLine := do
  let (text, directoriesOnly) := cutSlash text
  let pattern := spread isAnchored text
  return { glob := ← readItems? pattern.length true pattern, restores, directoriesOnly }

/-- Reads what a line says behind the mark that it restores something. A slash at its start ties the
line to the directory of the file.
-/
def readAnchored? (restores : Bool) : List Char → Option IgnoreLine
  | '/' :: text => readBody? restores true text
  | text => readBody? restores false text

/-- Reads a line. Comments, empty lines and lines with a mistake say nothing. -/
def read? (line : List Char) : Option IgnoreLine :=
  match trim line with
  | [] | '#' :: _ => none
  | '\\' :: '!' :: text => readBody? false false ('!' :: text)
  | '\\' :: '#' :: text => readBody? false false ('#' :: text)
  | '!' :: text => readAnchored? true text
  | text => readAnchored? false text

/-- The line speaks of an entry, given by its path below the directory of the file. -/
def speaksOf (line : IgnoreLine) (path : List Char) (isDirectory : Bool) : Bool :=
  (isDirectory || !line.directoriesOnly) && line.glob.accepts path

end IgnoreLine

def ignoreLines (text : String) : List IgnoreLine :=
  (text.toList.splitOnP (· == '\n')).filterMap IgnoreLine.read?

/-- What lines say of an entry: that it is ignored, that it is not, or nothing. -/
def verdict? (lines : List IgnoreLine) (path : List Char) (isDirectory : Bool) : Option Bool :=
  (lines.reverse.find? (·.speaksOf path isDirectory)).map (!·.restores)

/-! ## Entries of a workspace -/

namespace Workspace

/-- The directories above an entry, the nearest first. -/
def directoriesAbove (names : List String) : List (List String) :=
  (List.range names.length).reverse.map names.take

def isRepository (workspace : Workspace) (directory : List String) : Bool :=
  workspace.has (directory ++ [".git"])

/-- The nearest directories, up to the top of the repository that the entry is in. -/
def withinRepository (workspace : Workspace) (directories : List (List String))
    : List (List String) :=
  if directories.any workspace.isRepository then
    directories.takeWhile (!workspace.isRepository ·)
      ++ (directories.find? workspace.isRepository).toList
  else
    []

/-- What the files of a name in some directories say of an entry. The first one that says something
counts.
-/
def ruling? (workspace : Workspace) (file : List String) (directories : List (List String))
    (names : List String) (isDirectory : Bool)
    : Option Bool :=
  directories.findSome? fun directory =>
    (workspace.files.lookup (directory ++ file)).bind fun text =>
      verdict? (ignoreLines text) ("/".intercalate (names.drop directory.length)).toList
        isDirectory

/-- The entry is ignored. Files of version control count only in a repository, and those that lie in
its directories only if asked for.
-/
def ignores (workspace : Workspace) (respectsIgnoreFiles : Bool) (names : List String)
    (isDirectory : Bool)
    : Bool :=
  let above := directoriesAbove names
  let tracked := workspace.withinRepository above
  let shared := if respectsIgnoreFiles then tracked else []
  (((workspace.ruling? [".ignore"] above names isDirectory).or
    (workspace.ruling? [".gitignore"] shared names isDirectory)).or
    (workspace.ruling? [".git", "info", "exclude"] tracked names isDirectory)).getD false

/-- An entry at or above a file, but below a root, is ignored. -/
def isCutOff (workspace : Workspace) (respectsIgnoreFiles : Bool) (root names : List String)
    : Bool :=
  (List.range (names.length - root.length)).any fun n =>
    let length := root.length + n + 1
    workspace.ignores respectsIgnoreFiles (names.take length) (length < names.length)

/-- The names of the files below a root, each without those of the root, in the order of their
names.
-/
def filesBelow (workspace : Workspace) (respectsIgnoreFiles : Bool) (root : List String)
    : List (List String) :=
  let files := (workspace.files.map (·.1)).filter fun names =>
    root.isPrefixOf names && root.length < names.length
      && !workspace.isCutOff respectsIgnoreFiles root names
  (files.map (·.drop root.length)).mergeSort fun first second => decide (List.le first second)

end Workspace

end TreeLint
