import TreeLint.Diagnostic

/-!
What came of an analysis, of one tree or of several.
-/

namespace TreeLint

structure PassFailure where
  rule : String
  scope : NodeId
  message : String
  deriving DecidableEq, Repr, Inhabited

structure AnalysisResult where
  /-- What the passes reported, pass by pass. -/
  diagnostics : List Diagnostic := []
  failures : List PassFailure := []
  passes : Nat := 0
  filesChecked : Nat := 0
  /-- The analysis was stopped before its end. -/
  cancelled : Bool := false
  deriving DecidableEq, Repr, Inhabited

namespace AnalysisResult

def ofSeverity (result : AnalysisResult) (severity : Severity) : List Diagnostic :=
  result.diagnostics.filter (·.severity == severity)

def hasErrors (result : AnalysisResult) : Bool :=
  result.diagnostics.any (·.severity == .error)

def hasDiagnosticsAt (result : AnalysisResult) (severity : Severity) : Bool :=
  result.diagnostics.any (·.severity.reaches severity)

/-- The number of errors, of warnings and of infos. -/
def counts (result : AnalysisResult) : List Nat :=
  [Severity.error, .warning, .info].map fun severity => (result.ofSeverity severity).length

def ofRule (result : AnalysisResult) (rule : String) : List Diagnostic :=
  result.diagnostics.filter (·.rule == rule)

def append (first second : AnalysisResult) : AnalysisResult :=
  { diagnostics := first.diagnostics ++ second.diagnostics
    failures := first.failures ++ second.failures
    passes := first.passes + second.passes
    filesChecked := first.filesChecked + second.filesChecked
    cancelled := first.cancelled || second.cancelled }

end AnalysisResult

end TreeLint
