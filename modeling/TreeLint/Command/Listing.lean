import TreeLint.Rule.Basic
import TreeLint.Text.Basic

/-!
Texts that do not depend on any tree: the list of rules, the settings to start from and the usage.
-/

namespace TreeLint.Command

def joinLines (lines : List String) : String :=
  String.join (lines.map (· ++ "\n"))

/-! ## Rules -/

/-- A line of the list of rules. The last column is not padded. -/
def listRow (shortName id default fix group : String) : String :=
  " ".intercalate
    [Text.alignLeft 42 shortName, Text.alignLeft 46 id, Text.alignLeft 8 default,
      Text.alignLeft 5 fix, group]

def metricRow (metric : Metric) : String :=
  Text.alignLeft 42 "" ++ " " ++ metric.label ++ " " ++ toString metric.threshold.limit
    ++ " (default " ++ toString metric.threshold.default ++ ")"

def profileRows (profile : Profile) : List String :=
  listRow profile.shortName profile.id (if profile.enabledByDefault then "on" else "off")
      (if profile.offersFix then "yes" else "-") profile.group
    :: (profile.metric.map metricRow).toList

def ruleList : String :=
  joinLines
    (["Available inspections:", "", listRow "Short name" "Id" "Default" "Fix" "Group",
        String.ofList (List.replicate 130 '-')]
      ++ Rule.all.flatMap (profileRows ·.profile)
      ++ ["", "Use --rules to run specific inspections, e.g.:",
        "  gadgets check --rules InfiniteLoopStatement,TodoComment",
        "  gadgets check --rules MethodWithMultipleReturnPoints",
        "Use --all to run every inspection not disabled in gadgets.toml."])

/-! ## Settings to start from -/

def settingsFile : String := "gadgets.toml"

def startingSettings : String :=
  joinLines
    ["# gadgets configuration",
      "",
      "[analyzer]",
      "# Attach fixes that are only offered in interactive sessions",
      "interactive = false",
      "",
      "# Glob patterns to exclude from analysis",
      "exclude = [",
      "    \"**/target/**\",",
      "    \"**/build/**\",",
      "]",
      "",
      "# Respect .gitignore files",
      "respect_gitignore = true",
      "",
      "# Number of tree files analyzed in parallel (default: one per core)",
      "# parallelism = 4",
      "",
      "[telemetry]",
      "# Print per-inspection timings after each run",
      "enabled = false",
      "",
      "# Inspection configurations, keyed by short name or id.",
      "# Each inspection can be enabled/disabled and have its severity overridden.",
      "",
      "[rules.InfiniteLoopStatement]",
      "enabled = true",
      "# severity = \"error\"",
      "",
      "[rules.AnonymousClassMethodCount]",
      "enabled = true",
      "limit = 1",
      "",
      "[rules.MultipleReturnPointsPerMethod]",
      "enabled = true",
      "limit = 1",
      "",
      "# [rules.ChainedMethodCall]",
      "# enabled = true",
      "# ignore_field_initializations = true",
      "",
      "# [rules.TodoComment]",
      "# enabled = true",
      "# pattern = \"(?i)\\\\b(todo|fixme)\\\\b\""]

/-- What is printed when the settings to start from are written. -/
def startingAdvice : String :=
  joinLines
    ["Created gadgets.toml", "", "Next steps:",
      "  1. Edit gadgets.toml to configure inspections", "  2. Run: gadgets check"]

/-! ## Usage -/

def versionLine : String := "gadgets 0.1.0\n"

def usage : String :=
  joinLines
    ["Runs syntax-tree inspections over serialized source trees", "",
      "Usage: gadgets [OPTIONS] <COMMAND>", "", "Commands:",
      "  check [PATH]  Run inspections",
      "  fix <FILE>    Apply available fixes to a tree file",
      "  list-rules    List available inspections",
      "  init          Initialize configuration file"]

end TreeLint.Command
