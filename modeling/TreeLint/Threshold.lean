import TreeLint.Toml.Basic

/-!
Limits of metrics.
-/

namespace TreeLint

/-- A limit and what it is when nothing else is set. -/
structure Threshold where
  limit : Nat
  default : Nat
  deriving DecidableEq, Repr, Inhabited

namespace Threshold

def ofDefault (default : Nat) : Threshold :=
  { limit := default, default }

def set (threshold : Threshold) (limit : Nat) : Threshold :=
  { threshold with limit }

def reset (threshold : Threshold) : Threshold :=
  { threshold with limit := threshold.default }

/-- The limit that an option asks for. A missing option, and anything but an integer that is not
negative, means the default.
-/
def configure (threshold : Threshold) (option : Option Toml.Value) : Threshold :=
  match option with
  | some (.integer (.ofNat limit)) => threshold.set limit
  | _ => threshold.reset

/-- The metric is over the limit; one equal to it is not. -/
def isExceededBy (threshold : Threshold) (metric : Nat) : Bool :=
  threshold.limit < metric

end Threshold

end TreeLint
