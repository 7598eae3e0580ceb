import TreeLint.Rule.Checker
import TreeLint.Shape.Method

/-!
Rules about statements and the flow of control through them.
-/

namespace TreeLint.Checker

/-- Finds loops that end in no other way than by a throw. -/
def infiniteLoopStatement : Checker where
  profile :=
    { shortName := "InfiniteLoopStatement"
      id := "InfiniteLoopStatement"
      displayName := "Infinite loop statement"
      group := "Probable bugs"
      enabledByDefault := true
      scopes := [.methodScope, .fieldScope] }
  message _ _ := "#ref statement cannot complete without throwing an exception #loc"
  reaction? _ _
    | .ofKind .namedClass => some .skip
    | .ofKind .forStatement | .ofKind .whileStatement | .ofKind .doWhileStatement =>
        some (.walk (Subtree.selfIf fun loop => !loop.mayComplete && !loop.hasReturn))
    | _ => none

/-- Finds methods with more ways to return than a limit. -/
def multipleReturnPointsPerMethod (limit : Threshold) : Checker where
  profile :=
    { shortName := "MultipleReturnPointsPerMethod"
      id := "MethodWithMultipleReturnPoints"
      displayName := "Method with multiple return points."
      group := "Method metrics"
      scopes := [.methodScope]
      metric := some { label := "Return point limit:", threshold := limit } }
  message _ method := "#ref has " ++ toString method.returnPointCount ++ " return points #loc"
  reaction? _ _
    | .ofKind .method =>
        some (.stop (Subtree.selfIf fun method => limit.isExceededBy method.returnPointCount))
    | _ => none

/-- Finds variables that are declared together with others: local variables behind the first of
their statement, except at the start of a `for`, and fields without a written type.
-/
def multipleDeclaration : Checker where
  profile :=
    { shortName := "MultipleDeclaration"
      id := "MultipleVariablesInDeclaration"
      displayName := "Multiple variables in one declaration"
      group := "Code style issues"
      scopes := [.methodScope, .fieldScope]
      fix := some .splitDeclaration
      offersFix := true }
  message _ _ := "Multiple variables in one declaration #loc"
  reaction? tree _
    | .ofKind .namedClass => some .skip
    | .ofKind .declarationStatement =>
        some <| .walk fun statement =>
          let startsLoop :=
            statement.role == .init
              && (tree.parentContent? statement.id).any (·.kind == .forStatement)
          if startsLoop then [] else (statement.childrenOfKind .localVariable).drop 1
    | .ofKind .field =>
        some <| .walk <| Subtree.selfIf fun field =>
          field.kind != .enumConstant && (field.childrenOfKind .typeElement).isEmpty
    | _ => none

end TreeLint.Checker
