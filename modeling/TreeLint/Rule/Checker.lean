import TreeLint.Inspection.Basic
import TreeLint.Traversal.Visitor

/-!
The form that rules are written in. A rule says for some callbacks what it does at a node: whether
the children are walked, and which nodes are reported once they are done.
-/

namespace TreeLint

/-- What a walk knows of the code around a node. -/
structure Surroundings where
  /-- The code holds a lock. -/
  synchronized : Bool := false
  deriving DecidableEq, Repr, Inhabited

structure Step where
  /-- The surroundings in which the children are walked, if they are. -/
  below : Option Surroundings
  /-- The nodes reported once the children are done. -/
  reports : List Subtree := []
  deriving Repr, Inhabited

namespace Step

/-- Neither walks nor reports. -/
def skip : Step :=
  { below := none }

def stop (reports : List Subtree) : Step :=
  { below := none, reports }

def walk (around : Surroundings) (reports : List Subtree) : Step :=
  { below := some around, reports }

end Step

/-- What a rule does at a node, given what the walk knows of the code around it. -/
abbrev Reaction : Type :=
  Surroundings → Subtree → Step

namespace Reaction

/-- Neither walks nor reports. -/
def skip : Reaction :=
  fun _ _ => .skip

/-- Walks the root of the scope, and skips every other node. -/
def walkRoot (scope : Scope) : Reaction :=
  fun around node => if node.id = scope.root then .walk around [] else .skip

def stop (reports : Subtree → List Subtree) : Reaction :=
  fun _ node => .stop (reports node)

def walk (reports : Subtree → List Subtree) : Reaction :=
  fun around node => .walk around (reports node)

end Reaction

def Subtree.selfIf (test : Subtree → Bool) (node : Subtree) : List Subtree :=
  if test node then [node] else []

structure Checker where
  profile : Profile
  /-- The template of the message for a node that is reported. -/
  message : Tree → Subtree → String
  /-- What the rule does at the callbacks that concern it. -/
  reaction? : Tree → Scope → Callback → Option Reaction

namespace Checker

/-- A walk of a rule as far as it has come. -/
structure Progress where
  pass : PassState
  around : Surroundings := { }
  deriving Repr, Inhabited

def report (checker : Checker) (context : PassContext) (anchors : List Subtree)
    (state : PassState)
    : PassState :=
  anchors.foldl
    (fun state anchor =>
      state.report
        (checker.profile.diagnose context anchor (checker.message context.tree anchor)))
    state

/-- Does at a node what the rule says. The surroundings are those of before when it is done. -/
def act (checker : Checker) (context : PassContext) (reaction : Reaction) : Action Progress :=
  fun node walk progress =>
    let step := reaction progress.around node
    let walked :=
      match step.below with
      | none => progress.pass
      | some around => (walk { progress with around }).pass
    { progress with pass := checker.report context step.reports walked }

def visitor (checker : Checker) (context : PassContext) : Visitor Progress where
  goesOn progress :=
    let (goesOn, pass) := progress.pass.goesOn
    (goesOn, { progress with pass })
  action? callback :=
    (checker.reaction? context.tree context.scope callback).map (checker.act context)

def run (checker : Checker) (context : PassContext) (root : Subtree)
    (flag : Option CancelFlag)
    : PassState :=
  ((checker.visitor context).visit root { pass := { flag } }).pass

end Checker

end TreeLint
