import TreeLint.Subtree.Basic
import TreeLint.Document.Basic

/-!
The syntax tree of one file: an arena of nodes linked both ways. Nodes are numbered as they enter
the arena and never leave it; those that hang below the root are attached, others are left over
from edits. Links are followed with the size of the arena as a bound, which a well-linked tree
never reaches.
-/

namespace TreeLint

structure Node where
  content : Content
  parent : Option NodeId := none
  children : List NodeId := []
  deriving DecidableEq, Repr, Inhabited

structure Tree where
  path : Option String := none
  source : Option String := none
  languageLevel : UInt32 := defaultLanguageLevel
  /-- Fixes may change the tree. -/
  writable : Bool := true
  nodes : Array Node
  root : NodeId
  deriving DecidableEq, Repr, Inhabited

namespace Tree

def size (tree : Tree) : Nat :=
  tree.nodes.size

def node? (tree : Tree) (id : NodeId) : Option Node :=
  tree.nodes[id]?

def contains (tree : Tree) (id : NodeId) : Bool :=
  id < tree.size

def content? (tree : Tree) (id : NodeId) : Option Content :=
  (tree.node? id).map (·.content)

def childIds (tree : Tree) (id : NodeId) : List NodeId :=
  ((tree.node? id).map (·.children)).getD []

def parent? (tree : Tree) (id : NodeId) : Option NodeId :=
  (tree.node? id).bind (·.parent)

def parentContent? (tree : Tree) (id : NodeId) : Option Content :=
  (tree.parent? id).bind tree.content?

/-- The place of a node among the children of its parent. -/
def indexInParent? (tree : Tree) (id : NodeId) : Option Nat :=
  (tree.parent? id).bind fun parent => (tree.childIds parent).idxOf? id

/-- The ancestors of a node from its parent upward, at most as many as the bound says. -/
def ancestorsWithin (tree : Tree) : Nat → NodeId → List NodeId
  | 0, _ => []
  | bound + 1, id =>
      match tree.parent? id with
      | none => []
      | some parent => parent :: tree.ancestorsWithin bound parent

/-- The ancestors of a node from its parent up to the root. -/
def ancestors (tree : Tree) (id : NodeId) : List NodeId :=
  tree.ancestorsWithin tree.size id

/-- The first node is a strict ancestor of the second. -/
def isAncestor (tree : Tree) (upper lower : NodeId) : Bool :=
  (tree.ancestors lower).contains upper

/-- The first of some nodes whose content passes a test. -/
def findNode? (tree : Tree) (test : Content → Bool) (ids : List NodeId) : Option NodeId :=
  ids.find? fun id => (tree.content? id).any test

/-- The nearest class around a node, named or anonymous. -/
def enclosingClass? (tree : Tree) (id : NodeId) : Option NodeId :=
  tree.findNode? (·.kind.isClass) (tree.ancestors id)

/-- The first node that carries the label, be it attached or left over. An index that is filled as
nodes enter the arena, with the first one kept for each label, leads to the same node, since no edit
gives a node another label.
-/
def labelled? (tree : Tree) (label : String) : Option NodeId :=
  tree.nodes.findIdx? (·.content.label == some label)

/-- The subtree below a node, unless it is deeper than the bound or has a broken link. -/
def subtreeWithin (tree : Tree) : Nat → NodeId → Option Subtree
  | 0, _ => none
  | bound + 1, id => do
      let node ← tree.node? id
      return .mk id node.content (← node.children.mapM (tree.subtreeWithin bound))

/-- The node with the number and everything below it. There is none for a foreign number, and
none where links lead outside the arena or in a circle.
-/
def subtree? (tree : Tree) (id : NodeId) : Option Subtree :=
  tree.subtreeWithin tree.size id

def parentSubtree? (tree : Tree) (id : NodeId) : Option Subtree :=
  (tree.parent? id).bind tree.subtree?

/-- The nodes still to be visited, given the topmost ones on a stack: each is followed by what is
below it. Takes at most as many nodes as the bound says.
-/
def preorderFrom (tree : Tree) : Nat → List NodeId → List NodeId
  | 0, _ | _, [] => []
  | bound + 1, id :: stack => id :: tree.preorderFrom bound (tree.childIds id ++ stack)

def preorder (tree : Tree) : List NodeId :=
  tree.preorderFrom tree.size [tree.root]

def withPath (tree : Tree) (path : String) : Tree :=
  { tree with path := some path }

def withLevel (tree : Tree) (level : UInt32) : Tree :=
  { tree with languageLevel := level }

end Tree

end TreeLint
