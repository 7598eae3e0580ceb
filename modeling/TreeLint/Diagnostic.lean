import TreeLint.Severity
import TreeLint.Fix.Basic
import TreeLint.Tree.Location
import TreeLint.Tree.Edit

/-!
What an inspection reports, and the ways in which it is shown.
-/

namespace TreeLint

structure Diagnostic where
  rule : String
  id : String
  severity : Severity
  anchor : NodeId
  location : Option Location
  message : String
  fix : Option Fix
  fixOnlyInteractive : Bool
  deriving DecidableEq, Repr, Inhabited

/-- A range of the source that a report points at. -/
structure Highlight where
  label : String
  offset : UInt64
  length : UInt64
  deriving DecidableEq, Repr, Inhabited

/-- A diagnostic as it is told beside a piece of source. -/
structure Report where
  message : String
  help : Option String
  highlight : Option Highlight
  deriving DecidableEq, Repr, Inhabited

namespace Diagnostic

/-- The place that a diagnostic names: its location, or else its node. -/
def place (diagnostic : Diagnostic) : String :=
  diagnostic.location.elim diagnostic.anchor.text Location.text

def text (diagnostic : Diagnostic) : String :=
  diagnostic.place ++ ": " ++ diagnostic.severity.name ++ " [" ++ diagnostic.rule ++ "] "
    ++ diagnostic.message

/-- The line that says which inspection reports, and where. -/
def heading (diagnostic : Diagnostic) (place : String) : String :=
  diagnostic.id ++ " " ++ diagnostic.rule ++ " at " ++ place

def fixLine (diagnostic : Diagnostic) : String :=
  diagnostic.fix.elim "" fun fix => "  = fix: " ++ fix.name ++ "\n"

/-- The diagnostic on several lines, with the given word for its severity. -/
def paragraph (diagnostic : Diagnostic) (place severity : String) : String :=
  diagnostic.heading place ++ "\n  " ++ severity ++ ": " ++ diagnostic.message ++ "\n"
    ++ diagnostic.fixLine

def format (diagnostic : Diagnostic) : String :=
  diagnostic.paragraph
    (diagnostic.location.elim ("node " ++ diagnostic.anchor.text) Location.text)
    diagnostic.severity.name

/-- The diagnostic as it is told beside a piece of source. -/
def report (diagnostic : Diagnostic) : Report :=
  { message := "[" ++ diagnostic.rule ++ "] " ++ diagnostic.message ++ " (" ++ diagnostic.place
      ++ ")"
    help := diagnostic.fix.map ("fix available: " ++ ·.name)
    highlight := diagnostic.location.map fun location =>
      { label := diagnostic.rule, offset := location.offset, length := location.length } }

end Diagnostic

end TreeLint
