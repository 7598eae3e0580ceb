import TreeLint.Subtree.Basic

/-!
Questions of control flow. A fact of the host wins wherever there is one; without it the shape
of the statements answers, with errors on the safe side: a loop whose condition is missing or the
literal `true` ends only by a jump out of it.
-/

namespace TreeLint.Subtree

/-- The condition of a loop is missing or the literal `true`. -/
def isEndless (condition : Option Subtree) : Bool :=
  match condition.map stripParentheses with
  | none => true
  | some condition => condition.kind == .literal && condition.text? == some "true"

mutual
/-- A `break` below the node acts on the node. Those inside nested loops act on these. -/
def hasBreak : Subtree → Bool
  | .mk _ _ children => hasBreakAmong children

/-- One of the nodes is a `break` or hands one on to the node above. -/
def hasBreakAmong : List Subtree → Bool
  | [] => false
  | node :: rest =>
      node.kind == .breakStatement
        || !(node.kind.isClass || node.kind.isLoop) && node.hasBreak
        || hasBreakAmong rest
end

mutual
/-- A `return` of the same method is below the node. Nested classes are not searched. -/
def hasReturn : Subtree → Bool
  | .mk _ _ children => hasReturnAmong children

def hasReturnAmong : List Subtree → Bool
  | [] => false
  | node :: rest =>
      node.kind == .returnStatement
        || !node.kind.isClass && node.hasReturn
        || hasReturnAmong rest
end

mutual
/-- The number of `return` statements of the same method below the node; one inside another
does not count.
-/
def returnCount : Subtree → Nat
  | .mk _ _ children => returnCountAmong children

/-- The number of `return` statements at or below the nodes. -/
def returnCountAmong : List Subtree → Nat
  | [] => 0
  | node :: rest =>
      (if node.kind = .returnStatement then 1
        else if node.kind.isClass then 0
        else node.returnCount)
        + returnCountAmong rest
end

def mustThrow (node : Subtree) : Bool :=
  node.recurse fun node children =>
    node.facts.alwaysThrows.getD <|
      match node.kind with
      | .throwStatement => true
      | .codeBlock | .blockStatement => children.any fun (child, throws) =>
          child.kind.isStatement && throws
      | _ => false

def bodyValue? (children : List (Subtree × β)) : Option β :=
  ((children.find? (·.1.role == .body)).or (children.find? (·.1.kind == .codeBlock))).map (·.2)

/-- Control can reach the point behind the statement. -/
def mayComplete (statement : Subtree) : Bool :=
  statement.recurse fun node children =>
    let bodyCompletes := (bodyValue? children).getD true
    let isEndless := isEndless (node.childWithRole? .condition)
    node.facts.completesNormally.getD <|
      match node.kind with
      | .returnStatement | .throwStatement | .breakStatement | .continueStatement => false
      | .codeBlock | .blockStatement => children.all fun (child, completes) =>
          !child.kind.isStatement || completes
      | .synchronizedStatement => bodyCompletes
      | .ifStatement =>
          match children.find? (·.1.role == .otherwise) with
          | none => true
          | some (_, otherwise) => bodyCompletes || otherwise
      | .forStatement | .whileStatement => !isEndless || node.hasBreak
      | .doWhileStatement => bodyCompletes && !isEndless || node.hasBreak
      | .expressionStatement => !node.children.any mustThrow
      | _ => true

/-- Every way through the method ends in a throw. A method without a body has no way. -/
def methodMustThrow (method : Subtree) : Bool :=
  method.facts.alwaysThrows.getD <|
    match method.body? with
    | none => false
    | some body => !body.hasReturn && !body.mayComplete

end TreeLint.Subtree
