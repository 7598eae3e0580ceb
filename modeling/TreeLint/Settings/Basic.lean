import TreeLint.Toml.Basic
import TreeLint.Severity

/-!
The settings of a run: of the analysis as a whole, of timing, and of each rule by its name.
-/

namespace TreeLint

structure Section where
  enabled : Option Bool := none
  severity : Option Severity := none
  options : List (String × Toml.Value) := []
  deriving Repr, Inhabited

namespace Section

def option? (part : Section) (key : String) : Option Toml.Value :=
  part.options.lookup key

/-- The value of a switch; a missing one, or a value of another type, means the default. -/
def boolean (part : Section) (key : String) (default : Bool) : Bool :=
  ((part.option? key).bind (·.boolean?)).getD default

/-- The value of a number; a missing one, or a value of another type, means the default. -/
def integer (part : Section) (key : String) (default : Int) : Int :=
  ((part.option? key).bind (·.integer?)).getD default

/-- The value of a text; a missing one, or a value of another type, means the default. -/
def text (part : Section) (key : String) (default : String) : String :=
  ((part.option? key).bind (·.text?)).getD default

end Section

structure AnalysisSettings where
  /-- Fixes for interactive use only are offered. -/
  interactive : Bool := false
  /-- Patterns of paths that are left out. -/
  exclude : List String := ["**/target/**", "**/build/**"]
  /-- Paths that version control ignores are left out. -/
  respectIgnoreFiles : Bool := true
  /-- How many files may be analyzed at once. -/
  parallelism : Option Nat := none
  deriving DecidableEq, Repr, Inhabited

structure TimingSettings where
  enabled : Bool := false
  deriving DecidableEq, Repr, Inhabited

structure Settings where
  analysis : AnalysisSettings := { }
  timing : TimingSettings := { }
  /-- The sections of rules, by short name or id. The names differ from each other. -/
  rules : List (String × Section) := []
  deriving Repr, Inhabited

namespace Settings

/-- The section of a rule, found by its short name or else by its id. -/
def section? (settings : Settings) (shortName id : String) : Option Section :=
  (settings.rules.lookup shortName).or (settings.rules.lookup id)

/-- The choice made for a rule, where one is made. -/
def enabled? (settings : Settings) (shortName id : String) : Option Bool :=
  (settings.section? shortName id).bind (·.enabled)

/-- The severity set for a rule, where one is set. -/
def severity? (settings : Settings) (shortName id : String) : Option Severity :=
  (settings.section? shortName id).bind (·.severity)

/-- The sections with one of them changed, or added if there is none with the name. -/
def updateSection (name : String) (f : Section → Section)
    : List (String × Section) → List (String × Section)
  | [] => [(name, f { })]
  | (key, part) :: rest =>
      if key = name then (key, f part) :: rest
      else (key, part) :: updateSection name f rest

def setEnabled (settings : Settings) (name : String) (enabled : Bool) : Settings :=
  { settings with
    rules := updateSection name ({ · with enabled := some enabled }) settings.rules }

end Settings

end TreeLint
