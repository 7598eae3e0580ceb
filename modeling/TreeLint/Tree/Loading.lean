import TreeLint.Tree.Basic
import TreeLint.Document.Decoding
import TreeLint.Document.Encoding

/-!
Trees from documents and back. Loading numbers the nodes of an outline in pre-order, so that the
numbers of children follow from the sizes of the outlines before them.
-/

namespace TreeLint

namespace Outline

/-- The numbers of the topmost nodes of outlines that are numbered one after the other. -/
def starts : NodeId → List Outline → List NodeId
  | _, [] => []
  | start, outline :: rest => start :: starts (start + outline.size) rest

mutual
/-- The nodes of an outline in pre-order, numbered from `start` on, below a parent. -/
def flatten (start : NodeId) (parent : Option NodeId) : Outline → List Node
  | .mk content children =>
      { content, parent, children := starts (start + 1) children }
        :: flattenAll (start + 1) start children

def flattenAll (start : NodeId) (parent : NodeId) : List Outline → List Node
  | [] => []
  | outline :: rest =>
      outline.flatten start (some parent) ++ flattenAll (start + outline.size) parent rest
end

end Outline

namespace Tree

def ofDocument (document : Document) : Tree :=
  { path := document.path
    source := document.source
    languageLevel := document.languageLevel.getD defaultLanguageLevel
    writable := !document.readOnly
    nodes := (document.root.flatten 0 none).toArray
    root := 0 }

/-- The outline of a node; a node that is not well linked has the empty one. -/
def outline (tree : Tree) (id : NodeId) : Outline :=
  ((tree.subtree? id).map Subtree.outline).getD default

/-- The document that describes the attached part of a tree. -/
def toDocument (tree : Tree) : Document :=
  { path := tree.path
    source := tree.source
    languageLevel := some tree.languageLevel
    readOnly := !tree.writable
    root := tree.outline tree.root }

def read? (text : String) : Option Tree :=
  (Document.read? text).map ofDocument

def render (tree : Tree) : String :=
  tree.toDocument.render

end Tree

end TreeLint
