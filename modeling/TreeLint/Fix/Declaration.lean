import TreeLint.Tree.Edit
import TreeLint.Outline.Builder
import TreeLint.Text.Case

/-!
Fixes that add declarations: one for each variable of a declaration, and one for the receiver of a
call.
-/

namespace TreeLint.Fix

/-! ## Splitting declarations

Local variables behind the first move to new statements right behind the old one; a field gets its
own written type.
-/

/-- Moves local variables to new statements of a block, from the given place on. -/
def declareApart (block : NodeId) : Nat → List NodeId → Edit Unit
  | _, [] => return ()
  | index, declared :: rest => do
      Edit.detach declared
      let declaration ← Edit.addOutline (Outline.ofKind .declarationStatement)
      Edit.insertChild declaration 0 declared
      Edit.insertChild block index declaration
      declareApart block (index + 1) rest

def splitStatement (declared : NodeId) : Edit Unit := do
  let tree ← Edit.current
  let statement ←
    Edit.require declared .notInDeclaration
      ((tree.parentSubtree? declared).filter (·.kind == .declarationStatement))
  let block ← Edit.require statement.id .declarationDetached (tree.parent? statement.id)
  let index := (tree.indexInParent? statement.id).getD 0
  let later := (statement.childrenOfKind .localVariable).drop 1
  declareApart block (index + 1) (later.map (·.id))

def writeFieldType (field : Subtree) : Edit Unit := do
  if (field.childrenOfKind .typeElement).isEmpty then
    let typeName ← Edit.require field.id .unknownFieldType field.typeName?
    let element ← Edit.addOutline (Outline.typeElement typeName)
    Edit.insertChild field.id 0 element

/-- Gives the variable at the anchor, or those declared with it, a declaration of their own. -/
def splitDeclarationAt (anchor : NodeId) : Edit Unit := do
  Edit.ensureNode anchor
  let some node := (← Edit.current).subtree? anchor | throw (.unknownNode anchor)
  match node.kind with
  | .localVariable => splitStatement anchor
  | .field => writeFieldType node
  | _ => throw (.shape anchor .notVariable)

/-! ## Introducing variables

The receiver of a call gets a name: a local variable declared right before the statement that the
call is in.
-/

/-- The name without `get` in front, unless nothing else is there. -/
def dropGet (name : List Char) : List Char :=
  match name with
  | 'g' :: 'e' :: 't' :: c :: rest => c :: rest
  | _ => name

def variableName (receiver : Subtree) : String :=
  let base :=
    match receiver.kind with
    | .methodCall => receiver.name?.elim [] (dropGet ·.toList)
    | .newExpression => receiver.name?.elim [] (·.toList)
    | _ => []
  match base with
  | [] => "value"
  | first :: rest => String.ofList (Text.lower first ++ rest)

/-- The node is a statement right below a code block. -/
def isBlockStatement (tree : Tree) (id : NodeId) : Bool :=
  (tree.content? id).any (·.kind.isStatement)
    && (tree.parentContent? id).any (·.kind == .codeBlock)

/-- Introduces a variable for the receiver of the call at the anchor. -/
def introduceVariableAt (anchor : NodeId) : Edit Unit := do
  Edit.ensureNode anchor
  let tree ← Edit.current
  let some call := tree.subtree? anchor | throw (.unknownNode anchor)
  let qualifier ← Edit.require anchor .noQualifier (call.childWithRole? .qualifier)
  let statement ←
    Edit.require anchor .notInCodeBlock ((tree.ancestors anchor).find? (isBlockStatement tree))
  let block ← Edit.require statement .statementDetached (tree.parent? statement)
  let name := variableName qualifier.stripParentheses
  let typeName := qualifier.typeName?.getD "var"
  let index := (tree.indexInParent? statement).getD 0
  let declaration ←
    Edit.addOutline
      ((Outline.ofKind .declarationStatement).withChild (Outline.localVariable name typeName))
  let declared ←
    Edit.require declaration .noDeclaredVariable
      (((← Edit.current).childIds declaration).head?)
  Edit.detach qualifier.id
  Edit.setRole qualifier.id .initializer
  Edit.insertChild declared 0 qualifier.id
  Edit.insertChild block index declaration
  let reference ←
    Edit.addOutline
      (((Outline.referenceExpression name).withType typeName).withRole .qualifier)
  Edit.insertChild anchor 0 reference

end TreeLint.Fix
