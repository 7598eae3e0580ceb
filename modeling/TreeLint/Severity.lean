/-!
How serious a diagnostic is.
-/

namespace TreeLint

/-- How serious a diagnostic is, from the least to the most. -/
inductive Severity where
  | info
  | warning
  | error
  deriving DecidableEq, Repr, Inhabited

namespace Severity

def name : Severity → String
  | .info => "info"
  | .warning => "warning"
  | .error => "error"

def ofName? (name : String) : Option Severity :=
  [info, warning, error].find? (·.name == name)

def rank : Severity → Nat
  | .info => 0
  | .warning => 1
  | .error => 2

def reaches (severity limit : Severity) : Bool :=
  limit.rank ≤ severity.rank

theorem ofName?_name (severity : Severity) : ofName? severity.name = some severity := by
  cases severity <;> decide

end Severity

end TreeLint
