import TreeLint.Subtree.Text

/-!
Comparisons with a string literal that is the argument where it could be the receiver.
-/

namespace TreeLint

/-- A call that compares its receiver with a string literal. -/
structure LiteralComparison where
  /-- The name of the comparing method. -/
  method : String
  target : Subtree
  literal : Subtree
  deriving Repr, Inhabited

namespace LiteralComparison

def methods : List String :=
  ["equals", "equalsIgnoreCase"]

def stringTypes : List String :=
  ["java.lang.String", "String"]

def isStringLiteral (node : Subtree) : Bool :=
  node.kind == .literal && node.typeName?.any stringTypes.contains

/-- The comparison that a call is: it has one argument, a string literal, and a receiver that is
no literal.
-/
def ofCall? (call : Subtree) : Option LiteralComparison := do
  let method ← call.name?
  match call.childrenWithRole .argument with
  | [literal] =>
      let target ← call.childWithRole? .qualifier
      if methods.contains method && isStringLiteral literal
          && target.stripParentheses.kind != .literal then
        return { method, target, literal }
      else
        none
  | _ => none

def flipped (comparison : LiteralComparison) : String :=
  comparison.literal.sourceText ++ "." ++ comparison.method ++ "("
    ++ comparison.target.stripParentheses.sourceText ++ ")"

end LiteralComparison

end TreeLint
