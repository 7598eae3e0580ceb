import TreeLint.Inspection.Basic
import TreeLint.Text.Category
import TreeLint.Timing.Basic

/-!
Inspections whose runs may be timed. Whether they are is decided at the first run, and again at the
first run after the inspection was changed.
-/

namespace TreeLint

/-- How it is decided whether runs are timed. -/
inductive TimingMode where
  | always
  | never
  | switched (isOn : Bool)
  deriving DecidableEq, Repr, Inhabited

/-- Who decides whether runs are timed, and keeps the samples. -/
structure Timekeeper where
  mode : TimingMode := .never
  /-- How often the question was asked. -/
  lookups : Nat := 0
  /-- The samples in the order in which they were taken. -/
  samples : List Sample := []
  deriving DecidableEq, Repr, Inhabited

namespace Timekeeper

def turn (keeper : Timekeeper) (isOn : Bool) : Timekeeper :=
  match keeper.mode with
  | .switched _ => { keeper with mode := .switched isOn }
  | _ => keeper

def isOn (keeper : Timekeeper) : Bool :=
  match keeper.mode with
  | .always => true
  | .never => false
  | .switched isOn => isOn

/-- The answer to the question whether runs are timed. -/
def ask (keeper : Timekeeper) : Bool × Timekeeper :=
  (keeper.isOn, { keeper with lookups := keeper.lookups + 1 })

def record (keeper : Timekeeper) (sample : Sample) : Timekeeper :=
  { keeper with samples := keeper.samples ++ [sample] }

end Timekeeper

/-- An inspection whose runs may be timed. -/
structure Timed (ι : Type) where
  inspection : ι
  /-- Whether runs are timed, once that is decided. -/
  resolved : Option Bool := none
  deriving Repr, Inhabited

namespace Timed

variable {ι : Type}

/-- The inspection changed. What was decided before no longer holds. -/
def change (timed : Timed ι) (f : ι → ι) : Timed ι :=
  { inspection := f timed.inspection }

/-- Decides whether runs are timed, unless that is decided. -/
def resolve (timed : Timed ι) (keeper : Timekeeper) : Bool × Timekeeper :=
  match timed.resolved with
  | some isOn => (isOn, keeper)
  | none => keeper.ask

variable [Inspection ι]

/-- Runs a pass that takes the given time. A pass that breaks down is timed like any other. -/
def run (timed : Timed ι) (context : PassContext) (flag : Option CancelFlag)
    (keeper : Timekeeper) (elapsed : Duration)
    : PassState × Timed ι × Timekeeper :=
  let (isOn, keeper) := timed.resolve keeper
  let state := Inspection.inspectScope timed.inspection context flag
  let name := (Inspection.profile timed.inspection).displayName
  let keeper := if isOn then keeper.record { name, elapsed } else keeper
  (state, { timed with resolved := some isOn }, keeper)

/-- The inspection as it is printed for a reader of logs. -/
def logText (timed : Timed ι) : String :=
  "Instrumented \x7b inspection: "
    ++ Text.quoted (Inspection.profile timed.inspection).shortName ++ ", resolved: "
    ++ timed.resolved.elim "None" (fun isOn => "Some(" ++ toString isOn ++ ")") ++ ", .. \x7d"

end Timed

end TreeLint
