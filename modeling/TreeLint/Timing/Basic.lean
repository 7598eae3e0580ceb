import TreeLint.Timing.Duration

/-!
How long runs took: samples in the order in which they were taken, and their summary by name.
-/

namespace TreeLint

structure Sample where
  name : String
  elapsed : Duration
  deriving DecidableEq, Repr, Inhabited

/-- What is known of all runs under one name. -/
structure RunTotals where
  name : String
  runs : Nat := 0
  total : Duration := .zero
  longest : Duration := .zero
  deriving DecidableEq, Repr, Inhabited

namespace RunTotals

def average (totals : RunTotals) : Duration :=
  totals.total.part totals.runs

/-- One more run. There is no total if the time does not fit. -/
def add? (totals : RunTotals) (elapsed : Duration) : Option RunTotals := do
  return {
    totals with
    runs := totals.runs + 1
    total := ← totals.total.add? elapsed
    longest := totals.longest.max elapsed
  }

/-- The order of a summary: more time first, and names in order where the time is the same. -/
def comesBefore (first second : RunTotals) : Bool :=
  second.total.nanos < first.total.nanos
    || (first.total.nanos == second.total.nanos && first.name ≤ second.name)

end RunTotals

def addSample? (sample : Sample) : List RunTotals → Option (List RunTotals)
  | [] => do return [← RunTotals.add? { name := sample.name } sample.elapsed]
  | totals :: rest =>
      if totals.name = sample.name then do
        return (← totals.add? sample.elapsed) :: rest
      else do
        return totals :: (← addSample? sample rest)

/-- The totals of each name, those with more time first. There are none if the time of a name does
not fit.
-/
def summary? (samples : List Sample) : Option (List RunTotals) := do
  let totals ← samples.foldlM (fun totals sample => addSample? sample totals) []
  return totals.mergeSort RunTotals.comesBefore

end TreeLint
