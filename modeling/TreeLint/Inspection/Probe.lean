import TreeLint.Inspection.Basic
import TreeLint.Traversal.Visitor

/-!
A stand-in for an inspection. What it reports, where it breaks down and where it asks for
cancellation are settings, so that a suite can be tried out without a rule.
-/

namespace TreeLint

inductive ProbeForm where
  | plain
  /-- The message behind the state of the pass. -/
  | numbered
  /-- The state of the pass and the node, as they are printed for a reader of logs. -/
  | log
  deriving DecidableEq, Repr, Inhabited

/-- What a probe says when it breaks down. -/
inductive ProbeComplaint where
  | fixed
  | named
  | silent
  deriving DecidableEq, Repr, Inhabited

structure Probe where
  profile : Profile
  reported : List NodeKind := [.method]
  message : String := "Found #ref #loc"
  form : ProbeForm := .plain
  /-- The name of the nodes where the probe breaks down. -/
  breaksAt : Option String := none
  complaint : ProbeComplaint := .fixed
  /-- The name of the nodes where the probe sets the flag that stops the run. -/
  cancelsAt : Option String := none
  /-- The flag does not stop the probe. -/
  ignoresFlag : Bool := false
  entersClasses : Bool := false
  deriving Repr, Inhabited

namespace Probe

/-- The pass as it is printed for a reader of logs. -/
def logText (probe : Probe) (context : PassContext) (reported : Nat) : String :=
  "Reporter \x7b inspection: " ++ Text.quoted probe.profile.shortName ++ ", scope: "
    ++ context.scope.text ++ ", reported: " ++ toString reported ++ ", .. \x7d"

/-- The template of the message for a node, given the number of diagnostics so far. -/
def template (probe : Probe) (context : PassContext) (reported : Nat) (node : Subtree)
    : String :=
  match probe.form with
  | .plain => probe.message
  | .numbered =>
      toString reported ++ " in " ++ context.scope.kind.name ++ " "
        ++ NodeId.text context.scope.root ++ " of " ++ toString context.tree.size ++ " ("
        ++ toString context.options.interactive ++ "): " ++ probe.message
  | .log => probe.logText context reported ++ " " ++ node.content.logText node.id

/-- What the probe says when it breaks down at a node with the name. -/
def reason (probe : Probe) (name : String) : Option String :=
  match probe.complaint with
  | .fixed => some "cannot handle this"
  | .named => some ("cannot handle " ++ name)
  | .silent => none

def reportNode (probe : Probe) (context : PassContext) (node : Subtree) (state : PassState)
    : PassState :=
  if probe.reported.contains node.kind then
    let count := context.collected + state.reported.length
    state.report
      (probe.profile.diagnose context node (probe.template context count node))
  else
    state

/-- Sets the flag and breaks down where the name of the node asks for it. -/
def react (probe : Probe) (node : Subtree) (state : PassState) : PassState :=
  match node.name? with
  | none => state
  | some name =>
      let state :=
        if probe.cancelsAt = some name then { state with flag := state.flag.map (·.set) }
        else state
      if probe.breaksAt = some name then
        { state with breakdown := some { reason := probe.reason name } }
      else
        state

def act (probe : Probe) (context : PassContext) : Action PassState :=
  fun node walk state =>
    let state := probe.react node (probe.reportNode context node state)
    if state.breakdown.isSome then state else walk state

def visitor (probe : Probe) (context : PassContext) : Visitor PassState where
  goesOn state := if probe.ignoresFlag then (state.breakdown.isNone, state) else state.goesOn
  action?
    | .ofKind .namedClass =>
        some fun node walk state =>
          if node.id = context.scope.root || probe.entersClasses then
            probe.act context node walk state
          else
            state
    | .element => some (probe.act context)
    | _ => none

instance : Inspection Probe where
  profile := profile
  configure probe _ := probe
  pass probe context root flag := (probe.visitor context).visit root { flag }

end Probe

end TreeLint
