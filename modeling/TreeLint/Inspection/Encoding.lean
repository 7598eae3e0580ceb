import TreeLint.Document.Encoding
import TreeLint.Inspection.Basic
import TreeLint.Suite.Result

/-!
What is known of inspections, and what comes of them, as JSON. A diagnostic without a location or a
fix has no member for it, and a result without failures has none for them.
-/

namespace TreeLint

open Json

def Metric.toJson (metric : Metric) : Json :=
  .ofMembers
    [("label", .string metric.label), ("limit", .integer metric.threshold.limit),
      ("default", .integer metric.threshold.default)]

/-- A metric in short: its label, its limit and the default of it. -/
def Metric.items (metric : Metric) : Json :=
  .array
    [.string metric.label, .integer metric.threshold.limit, .integer metric.threshold.default]

def Profile.toJson (profile : Profile) : Json :=
  .ofMembers
    [("short_name", .string profile.shortName), ("id", .string profile.id),
      ("display_name", .string profile.displayName), ("group", .string profile.group),
      ("enabled", .bool profile.enabledByDefault), ("severity", .string profile.severity.name),
      ("scopes", .array (profile.scopes.map (.string ·.name))),
      ("has_fix", .bool profile.offersFix),
      ("interactive_only", .bool profile.fixOnlyInteractive),
      ("metric", profile.metric.elim .null Metric.items)]

def Location.toJson (location : Location) : Json :=
  .ofMembers
    [("file", .string location.file), ("line", .integer location.line),
      ("column", .integer location.column), ("offset", .integer location.offset.toNat),
      ("length", .integer location.length.toNat)]

def Diagnostic.members (diagnostic : Diagnostic) : List (String × Json) :=
  [("rule", .string diagnostic.rule), ("id", .string diagnostic.id),
      ("severity", .string diagnostic.severity.name), ("anchor", .integer diagnostic.anchor)]
    ++ member? "location" (diagnostic.location.map Location.toJson)
    ++ [("message", .string diagnostic.message)]
    ++ member? "fix" (diagnostic.fix.map (.string ·.name))
    ++ [("fix_only_interactive", .bool diagnostic.fixOnlyInteractive)]

/-- The members of a report; the ranges that it points at are a list of at most one. -/
def Report.toJson (report : Report) : Json :=
  .ofMembers
    [("message", .string report.message), ("help", report.help.elim .null .string),
      ("labels", .array
        (report.highlight.toList.map fun highlight =>
          .ofMembers
            [("label", .string highlight.label), ("offset", .integer highlight.offset.toNat),
              ("length", .integer highlight.length.toNat)]))]

def PassFailure.toJson (failure : PassFailure) : Json :=
  .ofMembers
    [("rule", .string failure.rule), ("scope", .integer failure.scope),
      ("message", .string failure.message)]

/-- The members of a result, with its diagnostics written in the given way. -/
def AnalysisResult.members (result : AnalysisResult)
    (diagnostic : Diagnostic → Json := fun diagnostic => .ofMembers diagnostic.members)
    : List (String × Json) :=
  [("diagnostics", .array (result.diagnostics.map diagnostic))]
    ++ memberList "failures" (result.failures.map PassFailure.toJson)
    ++ [("passes", .integer result.passes), ("files_checked", .integer result.filesChecked),
      ("cancelled", .bool result.cancelled)]

end TreeLint
