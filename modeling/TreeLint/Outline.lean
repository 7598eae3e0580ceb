import TreeLint.Node.Content

/-!
The nested form of a syntax tree: a node with its children inside it and no identities. It is
what documents describe and what builders assemble.
-/

namespace TreeLint

inductive Outline where
  | mk (content : Content) (children : List Outline)
  deriving Repr, Inhabited

namespace Outline

/-- What the topmost node says about itself. -/
def content : Outline → Content
  | .mk content _ => content

/-- The outlines right below the topmost node. -/
def children : Outline → List Outline
  | .mk _ children => children

@[simp] theorem content_mk (content : Content) (children : List Outline)
    : (mk content children).content = content := rfl

@[simp] theorem children_mk (content : Content) (children : List Outline)
    : (mk content children).children = children := rfl

mutual
def size : Outline → Nat
  | .mk _ children => sizeAll children + 1

/-- The number of nodes of several outlines together. -/
def sizeAll : List Outline → Nat
  | [] => 0
  | outline :: rest => outline.size + sizeAll rest
end

mutual
/-- The contents of all nodes in pre-order: a node before its children, siblings in order. -/
def contents : Outline → List Content
  | .mk content children => content :: contentsAll children

/-- The contents of several outlines, one outline after the other. -/
def contentsAll : List Outline → List Content
  | [] => []
  | outline :: rest => outline.contents ++ contentsAll rest
end

/-- The same topmost node with other content. -/
def modify (f : Content → Content) : Outline → Outline
  | .mk content children => .mk (f content) children

/-- The outline with further children behind those it has. -/
def append : Outline → List Outline → Outline
  | .mk content children, more => .mk content (children ++ more)

end Outline

end TreeLint
