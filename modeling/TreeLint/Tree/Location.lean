import TreeLint.Tree.Basic

/-!
Places in source text. An offset counts bytes; a position counts lines, and characters in the
line. An offset inside a character stands for the start of the character, and one behind the end
for the end.
-/

namespace TreeLint

/-- A place in a file. Line and column count from one and are zero when the text is not known;
offset and length are those of the span, whatever the text.
-/
structure Location where
  file : String
  line : Nat
  column : Nat
  offset : UInt64
  length : UInt64
  deriving DecidableEq, Repr, Inhabited

namespace Location

def text (location : Location) : String :=
  location.file ++ ":" ++ toString location.line ++ ":" ++ toString location.column

end Location

/-- The line and column reached from a position by going over the characters that end within so
many bytes.
-/
def positionFrom (line column : Nat) : Nat → List Char → Nat × Nat
  | _, [] => (line, column)
  | bytes, c :: rest =>
      if c.utf8Size ≤ bytes then
        if c = '\n' then
          positionFrom (line + 1) 1 (bytes - c.utf8Size) rest
        else
          positionFrom line (column + 1) (bytes - c.utf8Size) rest
      else
        (line, column)

def positionAt (source : String) (offset : Nat) : Nat × Nat :=
  positionFrom 1 1 offset source.toList

namespace Tree

def fileName (tree : Tree) : String :=
  tree.path.getD "<memory>"

def location? (tree : Tree) (id : NodeId) : Option Location := do
  let span ← (← tree.content? id).span
  let (line, column) := tree.source.elim (0, 0) (positionAt · span.offset.toNat)
  return { file := tree.fileName, line, column, offset := span.offset, length := span.length }

end Tree

end TreeLint
