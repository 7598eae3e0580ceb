import TreeLint.Rule.Checker
import TreeLint.Tree.Resolution

/-!
Rules about threads and locks.
-/

namespace TreeLint.Checker

/-- The methods that end or halt a thread from outside. -/
def threadControls : List String :=
  ["stop", "suspend", "resume"]

/-- Finds calls that end or halt a thread from outside. -/
def threadStopSuspendResume : Checker where
  profile :=
    { shortName := "ThreadStopSuspendResume"
      id := "CallToThreadStopSuspendOrResumeManager"
      displayName := "Call to 'Thread.stop()', '.suspend()' or '.resume()'"
      group := "Threading issues"
      scopes := [.methodScope, .fieldScope] }
  message _ _ := "Call to Thread.#ref() #loc"
  reaction? tree _
    | .ofKind .namedClass => some .skip
    | .ofKind .methodCall =>
        some <| .walk <| Subtree.selfIf fun call =>
          call.name?.any threadControls.contains
            && (tree.resolve? call.content).any (·.owner? tree == some "java.lang.Thread")
    | _ => none

/-- The declaration is a field that code outside its class can change. -/
def isExposedField (declaration : Declaration) : Bool :=
  declaration.kind? == some .fieldSymbol && !declaration.hasModifier .privateAccess
    && !declaration.hasModifier .final

/-- Finds uses of exposed fields in code that holds a lock. -/
def publicFieldAccessedInSynchronizedContext : Checker where
  profile :=
    { shortName := "PublicFieldAccessedInSynchronizedContext"
      id := "NonPrivateFieldAccessedInSynchronizedContext"
      displayName := "Non-private field accessed in synchronized context"
      group := "Threading issues"
      scopes := [.methodScope] }
  message _ _ := "Non-private field #ref accessed in synchronized context #loc"
  reaction? tree _
    | .ofKind .namedClass => some .skip
    | .ofKind .method =>
        some fun _ method => .walk { synchronized := method.hasModifier .synchronized } []
    | .ofKind .synchronizedStatement => some fun _ _ => .walk { synchronized := true } []
    | .ofKind .referenceExpression =>
        some fun around reference =>
          .walk around <| reference.selfIf fun reference =>
            around.synchronized && (tree.resolve? reference.content).any isExposedField
    | _ => none

end TreeLint.Checker
