import TreeLint.Outline

/-!
The tree document: one source file as a host hands it over.
-/

namespace TreeLint

/-- The language level of a file whose document does not give one. -/
def defaultLanguageLevel : UInt32 := 8

/-- A source file and its syntax tree. -/
structure Document where
  path : Option String := none
  /-- The source text, from which lines and columns are counted. -/
  source : Option String := none
  /-- The major version of the language that the file is written in. -/
  languageLevel : Option UInt32 := none
  /-- A file that refuses every fix. -/
  readOnly : Bool := false
  root : Outline
  deriving Repr, Inhabited

namespace Document

/-- The document with its language level written out. -/
def withLevel (document : Document) : Document :=
  { document with languageLevel := some (document.languageLevel.getD defaultLanguageLevel) }

end Document

end TreeLint
