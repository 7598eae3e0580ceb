import TreeLint.Tree.Edit
import TreeLint.Subtree.Text
import TreeLint.Outline.Builder

/-!
Turning an anonymous class into a named inner class of the class around it. The members move, and
the expression that created the anonymous class creates the named one.
-/

namespace TreeLint

/-- The part of a dotted name behind the last dot. -/
def lastSegment (name : List Char) : List Char :=
  (name.reverse.takeWhile (· != '.')).reverse

/-- The stem of a name if it is free, or else the stem with the least number from two on that
makes a free name of it.
-/
def freeName (taken : List String) (stem : String) : String :=
  if taken.contains stem then
    let numbered := (List.range' 2 (taken.length + 1)).map (stem ++ toString ·)
    (numbered.find? (!taken.contains ·)).getD stem
  else
    stem

namespace Fix

/-- The name of the inner class made from an anonymous class with the given base. -/
def innerClassName (outer : Subtree) (base : String) : String :=
  freeName ((outer.childrenOfKind .namedClass).filterMap (·.name?))
    (String.ofList (lastSegment base.toList) ++ "Impl")

/-- Moves some nodes behind the children of another one, in order. -/
def moveInto (target : NodeId) : List NodeId → Edit Unit
  | [] => return ()
  | id :: rest => do
      Edit.detach id
      Edit.appendChild target id
      moveInto target rest

/-- Converts the anonymous class whose base is the anchor. -/
def nameInnerClassAt (anchor : NodeId) : Edit Unit := do
  Edit.ensureNode anchor
  let tree ← Edit.current
  let anonymous ←
    Edit.require anchor .notAnonymousBase
      ((tree.parentSubtree? anchor).filter (·.kind == .anonymousClass))
  let creation ← Edit.require anonymous.id .anonymousDetached (tree.parent? anonymous.id)
  let outer ←
    Edit.require anonymous.id .noEnclosingClass
      ((tree.enclosingClass? anonymous.id).bind tree.subtree?)
  let base := ((tree.subtree? anchor).map (·.shownText)).getD ""
  let name := innerClassName outer base
  let members := (anonymous.children.filter (·.role != .baseClass)).map (·.id)
  let inner ←
    Edit.addOutline
      (((Outline.namedClass name).withModifier .privateAccess).withChild
        ((Outline.reference base).withRole .extended))
  moveInto inner members
  Edit.appendChild outer.id inner
  Edit.replaceWithText creation ("new " ++ name ++ "()")

end Fix

end TreeLint
