import TreeLint.Json.Basic
import TreeLint.Text.Basic
import TreeLint.Timing.Basic

/-!
Times of runs as a printed table and as JSON. A duration is written as its seconds and nanoseconds.
-/

namespace TreeLint

namespace RunTotals

def row (name runs total average longest : String) : String :=
  Text.alignLeft 50 name ++ " " ++ Text.alignRight 6 runs ++ " " ++ Text.alignRight 12 total
    ++ " " ++ Text.alignRight 12 average ++ " " ++ Text.alignRight 12 longest ++ "\n"

def line (totals : RunTotals) : String :=
  row totals.name (toString totals.runs) totals.total.text totals.average.text
    totals.longest.text

end RunTotals

def formatSummary (summary : List RunTotals) : String :=
  if summary.isEmpty then
    "No timing data available"
  else
    RunTotals.row "Inspection" "Runs" "Total" "Avg" "Max"
      ++ String.join (summary.map RunTotals.line)

/-- The seconds of a duration, and the nanoseconds beyond them. -/
def Duration.toJson (duration : Duration) : Json :=
  .array [.integer duration.seconds, .integer duration.subsecond]

def Sample.toJson (sample : Sample) : Json :=
  .array [.string sample.name, sample.elapsed.toJson]

def RunTotals.toJson (totals : RunTotals) : Json :=
  .ofMembers
    [("rule", .string totals.name), ("runs", .integer totals.runs),
      ("total", totals.total.toJson), ("max", totals.longest.toJson),
      ("avg", totals.average.toJson)]

end TreeLint
