import TreeLint.Cancellation
import TreeLint.Diagnostic
import TreeLint.Scope
import TreeLint.Settings.Basic
import TreeLint.Subtree.Text
import TreeLint.Text.Substitution
import TreeLint.Threshold

/-!
Inspections: checks that run over scopes of a tree, pass by pass. A pass yields what it reported
and may end in a failure; what it reported before the failure is kept.
-/

namespace TreeLint

structure Metric where
  label : String
  threshold : Threshold
  deriving DecidableEq, Repr, Inhabited

/-- What is known of an inspection without running it. -/
structure Profile where
  /-- The unique name. -/
  shortName : String
  /-- The name in settings and reports that stays when the inspection is renamed. -/
  id : String
  displayName : String
  group : String
  /-- The inspection runs unless it is turned off. -/
  enabledByDefault : Bool := false
  severity : Severity := .warning
  scopes : List ScopeKind
  fix : Option Fix := none
  /-- The inspection is listed as one with fixes. -/
  offersFix : Bool := false
  fixOnlyInteractive : Bool := false
  metric : Option Metric := none
  deriving DecidableEq, Repr, Inhabited

def Profile.answersTo (profile : Profile) (name : String) : Bool :=
  profile.shortName == name || profile.id == name

structure PassOptions where
  interactive : Bool := false
  /-- A severity in the place of that of the inspection. -/
  severity : Option Severity := none
  deriving DecidableEq, Repr, Inhabited

structure PassContext where
  tree : Tree
  scope : Scope
  options : PassOptions := { }
  /-- How many diagnostics were collected before the pass. -/
  collected : Nat := 0
  deriving Repr, Inhabited

/-- Why a pass broke off. -/
structure Breakdown where
  /-- What the pass said, if it said anything. -/
  reason : Option String
  deriving DecidableEq, Repr, Inhabited

def Breakdown.message (breakdown : Breakdown) : String :=
  breakdown.reason.getD "pass panicked"

structure PassState where
  reported : List Diagnostic := []
  /-- The flag that may ask the pass to stop, if somebody holds one. -/
  flag : Option CancelFlag := none
  breakdown : Option Breakdown := none
  deriving DecidableEq, Repr, Inhabited

namespace PassState

/-- The answer to the question whether to go on. A pass that broke down does not. -/
def goesOn (state : PassState) : Bool × PassState :=
  match state.breakdown, state.flag with
  | some _, _ => (false, state)
  | none, none => (true, state)
  | none, some flag =>
      let (isSet, flag) := flag.ask
      (!isSet, { state with flag := some flag })

def report (state : PassState) (diagnostic : Diagnostic) : PassState :=
  { state with reported := state.reported ++ [diagnostic] }

/-- Another pass with what the first one reported in front. -/
def after (earlier later : PassState) : PassState :=
  { later with reported := earlier.reported ++ later.reported }

end PassState

/-- The diagnostic for a problem at a node. Options decide about the severity and about whether the
fix is offered, and about nothing else.
-/
def Profile.diagnose (profile : Profile) (context : PassContext) (anchor : Subtree)
    (template : String)
    : Diagnostic :=
  { rule := profile.shortName
    id := profile.id
    severity := context.options.severity.getD profile.severity
    anchor := anchor.id
    location := context.tree.location? anchor.id
    message := Template.render template anchor.shownText
    fix :=
      if profile.fixOnlyInteractive && !context.options.interactive then none else profile.fix
    fixOnlyInteractive := profile.fixOnlyInteractive }

class Inspection (ι : Type) where
  /-- What is known of an inspection without running it. -/
  profile : ι → Profile
  /-- The inspection with the options of a section; what the section does not say is back at its
  default.
  -/
  configure : ι → Section → ι
  /-- What a pass over a subtree reports, and where it leaves the flag. -/
  pass : ι → PassContext → Subtree → Option CancelFlag → PassState

instance [Inspection ι] [Inspection κ] : Inspection (ι ⊕ κ) where
  profile
    | .inl inspection => Inspection.profile inspection
    | .inr inspection => Inspection.profile inspection
  configure
    | .inl inspection, part => .inl (Inspection.configure inspection part)
    | .inr inspection, part => .inr (Inspection.configure inspection part)
  pass
    | .inl inspection => Inspection.pass inspection
    | .inr inspection => Inspection.pass inspection

namespace Inspection

variable {ι : Type} [Inspection ι]

/-- Runs one pass. A scope outside the tree has nothing to report, and a scope with broken links
breaks the pass down.
-/
def inspectScope (inspection : ι) (context : PassContext) (flag : Option CancelFlag)
    : PassState :=
  if context.tree.contains context.scope.root then
    match context.tree.subtree? context.scope.root with
    | some root => pass inspection context root flag
    | none => { flag, breakdown := some { reason := some "broken link" } }
  else
    { flag }

/-- Runs a pass over each of some scopes, until one breaks down. Each pass collects its
diagnostics apart.
-/
def inspectScopes (inspection : ι) (tree : Tree) (options : PassOptions)
    : List Scope → Option CancelFlag → PassState
  | [], flag => { flag }
  | scope :: rest, flag =>
      let state := inspectScope inspection { tree, scope, options } flag
      if state.breakdown.isSome then
        state
      else
        state.after (inspectScopes inspection tree options rest state.flag)

/-- Runs a pass over each of some scopes, with one collection of diagnostics for all of them. This
gives the collection as it is after each pass.
-/
def collectScopes (inspection : ι) (tree : Tree) (options : PassOptions)
    : List Scope → Option CancelFlag → List Diagnostic → List (List Diagnostic)
  | [], _, _ => []
  | scope :: rest, flag, found =>
      let context : PassContext := { tree, scope, options, collected := found.length }
      let state := inspectScope inspection context flag
      let found := found ++ state.reported
      found :: collectScopes inspection tree options rest state.flag found

/-- Runs a pass over every scope of a tree that the inspection asks for. -/
def inspectTree (inspection : ι) (tree : Tree) (options : PassOptions)
    (flag : Option CancelFlag)
    : PassState :=
  inspectScopes inspection tree options (Scope.collect tree (profile inspection).scopes) flag

end Inspection

end TreeLint
