import TreeLint.Tree.Loading

/-!
The operations that change a tree. Each of them refuses a read-only tree before it looks at
anything else, and a foreign number next. An edit that fails keeps what was done before the
failure.
-/

namespace TreeLint

/-- What is wrong with the shape of a tree for an edit. -/
inductive ShapeFault where
  | noParent
  | alreadyAttached
  | cycle
  | notAnonymousBase
  | anonymousDetached
  | noEnclosingClass
  | notInDeclaration
  | declarationDetached
  | unknownFieldType
  | notVariable
  | noQualifier
  | notInCodeBlock
  | statementDetached
  | noDeclaredVariable
  | notPointless
  | notLiteralEquals
  deriving DecidableEq, Repr, Inhabited

namespace ShapeFault

def message : ShapeFault → String
  | .noParent => "node has no parent"
  | .alreadyAttached => "node is already attached"
  | .cycle => "insertion would create a cycle"
  | .notAnonymousBase => "anchor is not the base of an anonymous class"
  | .anonymousDetached => "anonymous class is detached"
  | .noEnclosingClass => "no enclosing class"
  | .notInDeclaration => "variable is not part of a declaration"
  | .declarationDetached => "declaration is detached"
  | .unknownFieldType => "field type is unknown"
  | .notVariable => "not a variable declaration"
  | .noQualifier => "call has no qualifier"
  | .notInCodeBlock => "call is not inside a code block"
  | .statementDetached => "statement is detached"
  | .noDeclaredVariable => "declaration has no variable"
  | .notPointless => "expression is no longer pointless"
  | .notLiteralEquals => "not a literal equals call"

end ShapeFault

inductive FixError where
  | readOnly
  | noFix
  | unknownNode (id : NodeId)
  | shape (id : NodeId) (fault : ShapeFault)
  deriving DecidableEq, Repr, Inhabited

def NodeId.text (id : NodeId) : String :=
  "#" ++ toString id

namespace FixError

def message : FixError → String
  | .readOnly => "file is read-only"
  | .noFix => "diagnostic has no fix"
  | .unknownNode id => "node " ++ NodeId.text id ++ " is not part of the tree"
  | .shape id fault => "cannot fix node " ++ NodeId.text id ++ ": " ++ fault.message

end FixError

/-- A change of a tree that may fail. -/
abbrev Edit (α : Type) : Type :=
  ExceptT FixError (StateM Tree) α

namespace Edit

/-- The outcome of an edit of a tree, and the tree as the edit leaves it. -/
def apply (edit : Edit α) (tree : Tree) : Except FixError α × Tree :=
  (ExceptT.run edit).run tree

def current : Edit Tree :=
  get

def require (id : NodeId) (fault : ShapeFault) (value : Option α) : Edit α :=
  match value with
  | some value => return value
  | none => throw (.shape id fault)

/-- Fails unless the tree may be changed. -/
def ensureWritable : Edit Unit := do
  if (← current).writable then return () else throw .readOnly

/-- Fails unless the tree may be changed and has the node. -/
def ensureNode (id : NodeId) : Edit Unit := do
  ensureWritable
  if (← current).contains id then return () else throw (.unknownNode id)

def modifyNode (id : NodeId) (f : Node → Node) : Edit Unit :=
  modify fun tree => { tree with nodes := tree.nodes.modify id f }

/-- Changes what a node says about itself. -/
def modifyContent (id : NodeId) (f : Content → Content) : Edit Unit :=
  modifyNode id fun node => { node with content := f node.content }

/-- Takes a modifier away from a declaration, wherever it stands in the list. -/
def removeModifier (id : NodeId) (modifier : Modifier) : Edit Unit := do
  ensureNode id
  modifyContent id fun content =>
    { content with modifiers := content.modifiers.filter (· != modifier) }

/-- Puts text in the place of a node. The node keeps its number, place, role and span, and what
was below it is left over.
-/
def replaceWithText (id : NodeId) (text : String) : Edit Unit := do
  ensureNode id
  for child in (← current).childIds id do
    modifyNode child fun node => { node with parent := none }
  modifyNode id fun node =>
    { node with
      children := []
      content :=
        { node.content with
          kind := .fragment, name := none, text := some text, modifiers := [], facts := { } } }

/-- Cuts a node off its parent, with everything below it. -/
def detach (id : NodeId) : Edit Unit := do
  ensureNode id
  let parent ← require id .noParent ((← current).parent? id)
  modifyNode id fun node => { node with parent := none }
  modifyNode parent fun node => { node with children := node.children.filter (· != id) }

/-- Adds an outline to the arena, attached to nothing, and gives the number of its topmost node.
-/
def addOutline (outline : Outline) : Edit NodeId := do
  ensureWritable
  let id := (← current).size
  modify fun tree => { tree with nodes := tree.nodes ++ (outline.flatten id none).toArray }
  return id

/-- Hangs a node that has no parent below another, at a place among the children or, if there are
fewer, at their end.
-/
def insertChild (parent : NodeId) (index : Nat) (child : NodeId) : Edit Unit := do
  ensureNode parent
  ensureNode child
  let tree ← current
  if (tree.parent? child).isSome ∨ child = tree.root then
    throw (.shape child .alreadyAttached)
  if parent = child ∨ tree.isAncestor child parent then
    throw (.shape child .cycle)
  modifyNode parent fun node =>
    { node with children := node.children.insertIdx (min index node.children.length) child }
  modifyNode child fun node => { node with parent := some parent }

/-- Hangs a node that has no parent below another, behind its children. -/
def appendChild (parent child : NodeId) : Edit Unit := do
  insertChild parent ((← current).childIds parent).length child

/-- Gives a node another place among the roles of its parent. -/
def setRole (id : NodeId) (role : Role) : Edit Unit := do
  ensureNode id
  modifyContent id ({ · with role })

def setName (id : NodeId) (name : String) : Edit Unit := do
  ensureNode id
  modifyContent id ({ · with name := some name })

/-- Lets fixes change the tree, or forbids it. This edit never fails. -/
def setWritable (writable : Bool) : Edit Unit :=
  modify ({ · with writable })

end Edit

end TreeLint
