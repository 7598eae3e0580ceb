import TreeLint.Rule.Checker
import TreeLint.Shape.Bitwise
import TreeLint.Shape.LiteralComparison

/-!
Rules about expressions.
-/

namespace TreeLint.Checker

/-- Finds bitwise expressions that come to one of their operands or to its complement. -/
def pointlessBitwiseExpression : Checker where
  profile :=
    { shortName := "PointlessBitwiseExpression"
      id := "PointlessBitwiseExpression"
      displayName := "Pointless bitwise expression"
      group := "Verbose or redundant code constructs"
      enabledByDefault := true
      scopes := [.methodScope, .fieldScope]
      fix := some .simplify
      offersFix := true }
  message _ expression :=
    "#ref can be replaced with "
      ++ (BitwiseOperation.ofExpression? expression).elim "" (·.replacement) ++ " #loc"
  reaction? _ _
    | .ofKind .namedClass => some .skip
    | .ofKind .binaryExpression =>
        some <| .walk <| Subtree.selfIf fun expression =>
          (BitwiseOperation.pointless? expression).isSome
    | _ => none

/-- The call has a receiver that is itself a call or creates an object. -/
def isChained (call : Subtree) : Bool :=
  (call.childWithRole? .qualifier).any fun qualifier =>
    let kind := qualifier.stripParentheses.kind
    kind == .methodCall || kind == .newExpression

/-- Finds calls on the result of a call, except, if asked for, below fields. -/
def chainedMethodCall (ignoreFields : Bool) : Checker where
  profile :=
    { shortName := "ChainedMethodCall"
      id := "ChainedMethodCall"
      displayName := "Chained method calls"
      group := "Potentially confusing code constructs"
      scopes := [.methodScope, .fieldScope]
      fix := some .introduceVariable
      offersFix := true
      fixOnlyInteractive := true }
  message _ _ := "Chained method call #ref() #loc"
  reaction? tree _
    | .ofKind .namedClass => some .skip
    | .ofKind .methodCall =>
        some <| .walk <| Subtree.selfIf fun call =>
          isChained call
            && !(ignoreFields
              && (tree.findNode? (·.kind == .field) (tree.ancestors call.id)).isSome)
    | _ => none

/-- Finds comparisons with a string literal that is the argument. -/
def literalAsArgToStringEquals : Checker where
  profile :=
    { shortName := "LiteralAsArgToStringEquals"
      id := "LiteralAsArgToStringEquals"
      displayName := "expression.equals(\"literal\") rather than \"literal\".equals(expression)"
      group := "Code style issues"
      scopes := [.methodScope, .fieldScope]
      fix := some .flipEquals
      offersFix := true }
  message _ call :=
    call.sourceText ++ ": String literal is argument of ." ++ call.name?.getD "equals"
      ++ "(), instead of the target."
  reaction? _ _
    | .ofKind .namedClass => some .skip
    | .ofKind .methodCall =>
        some (.walk (Subtree.selfIf fun call => (LiteralComparison.ofCall? call).isSome))
    | _ => none

end TreeLint.Checker
