import TreeLint.Command.Arguments
import TreeLint.Json.Printer
import TreeLint.Inspection.Encoding

/-!
Reports on files, and the formats in which they are printed. Failures of passes and the sums over
all files belong to the formats for people.
-/

namespace TreeLint.Command

structure FileReport where
  /-- The path that the tree names, or else that of its file. -/
  path : String
  result : AnalysisResult
  deriving DecidableEq, Repr, Inhabited

/-! ## Colours -/

inductive Colour where
  | red
  | green
  | yellow
  | blue
  deriving DecidableEq, Repr, Inhabited

/-- The number of the colour in control sequences. -/
def Colour.code : Colour → String
  | .red => "31"
  | .green => "32"
  | .yellow => "33"
  | .blue => "34"

def Colour.paint (colour : Colour) (text : String) : String :=
  "\x1b[" ++ colour.code ++ "m" ++ text ++ "\x1b[0m"

def severityColour : Severity → Colour
  | .error => .red
  | .warning => .yellow
  | .info => .blue

namespace FileReport

/-! ## One file -/

/-- Where a diagnostic stands, in words: its location, or else the path and the node. -/
def place (report : FileReport) (diagnostic : Diagnostic) : String :=
  diagnostic.location.elim (report.path ++ " (node " ++ diagnostic.anchor.text ++ ")")
    Location.text

def paragraph (report : FileReport) (diagnostic : Diagnostic) : String :=
  diagnostic.paragraph (report.place diagnostic)
      ((severityColour diagnostic.severity).paint diagnostic.severity.name)
    ++ "\n"

def story (diagnostic : Diagnostic) : String :=
  diagnostic.report.message ++ "\n"
    ++ diagnostic.report.help.elim "" fun help => "  help: " ++ help ++ "\n"

def line (report : FileReport) (diagnostic : Diagnostic) : String :=
  diagnostic.location.elim report.path Location.text ++ ": " ++ diagnostic.severity.name ++ " ["
    ++ diagnostic.id ++ "] " ++ diagnostic.message ++ "\n"

def failureLine (report : FileReport) (failure : PassFailure) : String :=
  Colour.red.paint (failure.rule ++ " failed") ++ " on " ++ report.path ++ " at node "
    ++ failure.scope.text ++ ": " ++ failure.message ++ "\n"

def toJson (report : FileReport) : Json :=
  .ofMembers (("path", .string report.path) :: report.result.members)

end FileReport

/-! ## All files -/

def eachDiagnostic (words : FileReport → Diagnostic → String) (reports : List FileReport)
    : String :=
  String.join (reports.flatMap fun report => report.result.diagnostics.map (words report))

def failureLines (reports : List FileReport) : String :=
  String.join
    (reports.flatMap fun report => report.result.failures.map report.failureLine)

def countOf (severity : Severity) (reports : List FileReport) : Nat :=
  (reports.flatMap fun report => report.result.ofSeverity severity).length

/-- The colour of the sums: that of the most serious diagnostics that count. -/
def sumColour (reports : List FileReport) : Colour :=
  if countOf .error reports > 0 then .red
  else if countOf .warning reports > 0 then .yellow
  else .green

def sumLine (reports : List FileReport) : String :=
  (sumColour reports).paint
      ("Found " ++ toString (countOf .error reports) ++ " error(s), "
        ++ toString (countOf .warning reports) ++ " warning(s), "
        ++ toString (countOf .info reports) ++ " info(s) in " ++ toString reports.length
        ++ " file(s)")
    ++ "\n"

def printReports (reports : List FileReport) : OutputFormat → String
  | .text =>
      eachDiagnostic FileReport.paragraph reports ++ failureLines reports ++ sumLine reports
  | .pretty =>
      eachDiagnostic (fun _ => FileReport.story) reports ++ failureLines reports
        ++ sumLine reports
  | .json => (Json.array (reports.map FileReport.toJson)).indented ++ "\n"
  | .compact => eachDiagnostic FileReport.line reports

end TreeLint.Command
