import TreeLint.Outline

/-!
A part of a numbered tree, seen from its topmost node: the node and everything below it, each
with its number. Analyses that look downward recurse on this form.
-/

namespace TreeLint

/-- The number of a node: its place in the arena of its tree. Numbers are written with 32 bits, so an
arena is taken to have fewer than `2 ^ 32` nodes; they are not cut to that size here.
-/
abbrev NodeId := Nat

/-- A numbered node and everything below it. -/
inductive Subtree where
  | mk (id : NodeId) (content : Content) (children : List Subtree)
  deriving Repr, Inhabited

namespace Subtree

def id : Subtree → NodeId
  | .mk id _ _ => id

/-- What the topmost node says about itself. -/
def content : Subtree → Content
  | .mk _ content _ => content

/-- The subtrees right below the topmost node, in source order. -/
def children : Subtree → List Subtree
  | .mk _ _ children => children

def kind (node : Subtree) : NodeKind :=
  node.content.kind

def name? (node : Subtree) : Option String :=
  node.content.name

def text? (node : Subtree) : Option String :=
  node.content.text

def role (node : Subtree) : Role :=
  node.content.role

def facts (node : Subtree) : Facts :=
  node.content.facts

def hasModifier (node : Subtree) (modifier : Modifier) : Bool :=
  node.content.hasModifier modifier

def typeName? (node : Subtree) : Option String :=
  node.content.facts.typeName

/-- The qualified name of a class, or its simple name where the host gives no other. -/
def fullName? (node : Subtree) : Option String :=
  node.content.fullName?

mutual
/-- The nodes of a subtree in pre-order, each seen with what is below it. -/
def nodes : Subtree → List Subtree
  | .mk id content children => .mk id content children :: nodesAll children

/-- The nodes of several subtrees, one subtree after the other. -/
def nodesAll : List Subtree → List Subtree
  | [] => []
  | node :: rest => node.nodes ++ nodesAll rest
end

mutual
def outline : Subtree → Outline
  | .mk _ content children => .mk content (outlineAll children)

def outlineAll : List Subtree → List Outline
  | [] => []
  | node :: rest => node.outline :: outlineAll rest
end

mutual
/-- Recursion over a subtree: the value at a node, from the node itself and from its children,
each with its own value.
-/
def recurse (f : Subtree → List (Subtree × β) → β) : Subtree → β
  | .mk id content children => f (.mk id content children) (recurseAll f children)

def recurseAll (f : Subtree → List (Subtree × β) → β) : List Subtree → List (Subtree × β)
  | [] => []
  | node :: rest => (node, node.recurse f) :: recurseAll f rest
end

theorem recurseAll_eq_map (f : Subtree → List (Subtree × β) → β) (nodes : List Subtree)
    : recurseAll f nodes = nodes.map fun node => (node, node.recurse f) := by
  induction nodes with
  | nil => rfl
  | cons node rest ih => rw [recurseAll, ih, List.map_cons]

theorem recurse_eq (f : Subtree → List (Subtree × β) → β) (node : Subtree)
    : node.recurse f = f node (node.children.map fun child => (child, child.recurse f)) := by
  cases node with
  | mk id content children => rw [recurse, recurseAll_eq_map, Subtree.children]

def childWithRole? (node : Subtree) (role : Role) : Option Subtree :=
  node.children.find? (·.role == role)

def childrenWithRole (node : Subtree) (role : Role) : List Subtree :=
  node.children.filter (·.role == role)

def childrenOfKind (node : Subtree) (kind : NodeKind) : List Subtree :=
  node.children.filter (·.kind == kind)

def statements (node : Subtree) : List Subtree :=
  node.children.filter (·.kind.isStatement)

/-- The body of a method, loop or synchronized statement: the child with that role, else the
first code block.
-/
def body? (node : Subtree) : Option Subtree :=
  (node.childWithRole? .body).or (node.children.find? (·.kind == .codeBlock))

/-- The expression inside any parentheses around it. Parentheses around nothing stay. -/
def stripParentheses : Subtree → Subtree
  | .mk id content (inner :: rest) =>
      if content.kind = .parenthesizedExpression then
        inner.stripParentheses
      else
        .mk id content (inner :: rest)
  | .mk id content [] => .mk id content []

end Subtree

end TreeLint
