import TreeLint.Settings.Basic
import TreeLint.Toml.Reader

/-!
Settings in files and in answers. What a file does not say is at its default; keys that are not known
are ignored, except in the section of a rule, where they are its options. In an answer, everything
that is at its default is written out.
-/

namespace TreeLint

-----------------------------------------------------------------------------------------
-- Reading settings
-----------------------------------------------------------------------------------------

namespace Toml.Value

/-- The fields of a record, which is written as a table or as an array of values in order. -/
def fields? (names : List String) : Value → Option (List (String × Value))
  | .table entries => some entries
  | .array items => some (names.zip items)
  | _ => none

def orDefault? (default : α) (read : Value → Option α) : Option Value → Option α
  | none => some default
  | some value => read value

def natural? : Value → Option Nat
  | .integer (.ofNat n) => some n
  | _ => none

def texts? : Value → Option (List String)
  | .array items => items.mapM text?
  | _ => none

/-- A severity: its name, or a table with the name as its only key and nothing behind it. -/
def severity? : Value → Option Severity
  | .string name => Severity.ofName? name
  | .table [(name, .table [])] | .table [(name, .array [])] => Severity.ofName? name
  | _ => none

end Toml.Value

open Toml

/-- Reads what is set for the analysis as a whole. -/
def AnalysisSettings.ofValue? (value : Value) : Option AnalysisSettings := do
  let fields ← value.fields? ["interactive", "exclude", "respect_gitignore", "parallelism"]
  return {
    interactive := ← Value.orDefault? false Value.boolean? (fields.lookup "interactive")
    exclude := ← Value.orDefault? [] Value.texts? (fields.lookup "exclude")
    respectIgnoreFiles := ←
      Value.orDefault? true Value.boolean? (fields.lookup "respect_gitignore")
    parallelism := ←
      Value.orDefault? none (Value.natural? · |>.map some) (fields.lookup "parallelism")
  }

def TimingSettings.ofValue? (value : Value) : Option TimingSettings := do
  let fields ← value.fields? ["enabled"]
  return { enabled := ← Value.orDefault? false Value.boolean? (fields.lookup "enabled") }

namespace Section

def ofEntries? (entries : List (String × Value)) : Option Section := do
  return {
    enabled := ← Value.orDefault? none (Value.boolean? · |>.map some) (entries.lookup "enabled")
    severity := ←
      Value.orDefault? none (Value.severity? · |>.map some) (entries.lookup "severity")
    options := entries.filter fun (key, _) => key != "enabled" && key != "severity"
  }

def read? (text : String) : Option Section := do
  ofEntries? (← Toml.read? text)

end Section

namespace Settings

def rulesOfValue? (value : Value) : Option (List (String × Section)) := do
  (← value.table?).mapM fun (name, part) => do
    return (name, ← Section.ofEntries? (← part.table?))

def ofEntries? (entries : List (String × Value)) : Option Settings := do
  return {
    analysis := ← Value.orDefault? { } AnalysisSettings.ofValue? (entries.lookup "analyzer")
    timing := ← Value.orDefault? { } TimingSettings.ofValue? (entries.lookup "telemetry")
    rules := ← Value.orDefault? [] rulesOfValue? (entries.lookup "rules")
  }

def read? (text : String) : Option Settings := do
  ofEntries? (← Toml.read? text)

end Settings

-----------------------------------------------------------------------------------------
-- Settings as JSON
-----------------------------------------------------------------------------------------

/-- The section of a rule: what is set for every rule, and the options of its own. -/
def Section.toJson (part : Section) : Json :=
  .ofMembers
    (("enabled", part.enabled.elim .null .bool)
      :: ("severity", part.severity.elim .null (.string ·.name))
      :: part.options.map fun (key, value) => (key, value.toJson))

def Settings.toJson (settings : Settings) : Json :=
  .ofMembers
    [("analyzer",
        .ofMembers
          [("interactive", .bool settings.analysis.interactive),
            ("exclude", .array (settings.analysis.exclude.map .string)),
            ("respect_gitignore", .bool settings.analysis.respectIgnoreFiles),
            ("parallelism", settings.analysis.parallelism.elim .null (.integer ·))]),
      ("telemetry", .ofMembers [("enabled", .bool settings.timing.enabled)]),
      ("rules", .ofMembers (settings.rules.map fun (name, part) => (name, part.toJson)))]

end TreeLint
