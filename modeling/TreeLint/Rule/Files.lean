import TreeLint.Pattern.Reader
import TreeLint.Rule.Checker

/-!
Rules about what stands in a file around its code: imports and comments.
-/

namespace TreeLint.Checker

def staticImports (file : Subtree) : List Subtree :=
  (file.childrenOfKind .importList).flatMap fun imports =>
    (imports.childrenOfKind .importStatic).filterMap fun static =>
      (static.childrenOfKind .reference).head?

/-- Finds static imports. They are reported with the first class of their file. -/
def staticImport : Checker where
  profile :=
    { shortName := "StaticImport"
      id := "StaticImport"
      displayName := "Static import"
      group := "Imports"
      scopes := [.classScope] }
  message _ _ := "Static import #ref #loc"
  reaction? tree _
    | .ofKind .namedClass =>
        some <| .stop fun node =>
          match (tree.parentSubtree? node.id).filter (·.kind == .file) with
          | some file =>
              if (file.childrenOfKind .namedClass).head?.map (·.id) = some node.id then
                staticImports file
              else
                []
          | none => []
    | _ => none

/-- The pattern of comments that put something off, as it is written. -/
def todoSource : String :=
  "(?i)\\btodo\\b"

/-- The pattern of comments that put something off. -/
def todoPattern : Pattern :=
  (Pattern.read? todoSource).getD .empty

/-- The pattern that a text stands for; a text that stands for none means the usual one. -/
def commentPattern (source : String) : Pattern :=
  (Pattern.read? source).getD todoPattern

def todoComment (pattern : Pattern) : Checker where
  profile :=
    { shortName := "TodoComment"
      id := "TodoComment"
      displayName := "TODO comment"
      group := "Code maturity issues"
      severity := .info
      scopes := [.classScope] }
  message _ _ := "TODO comment #ref #loc"
  reaction? _ scope
    | .ofKind .namedClass => some (.walkRoot scope)
    | .ofKind .comment =>
        some (.stop (Subtree.selfIf fun comment => comment.text?.any pattern.isFoundIn))
    | _ => none

end TreeLint.Checker
