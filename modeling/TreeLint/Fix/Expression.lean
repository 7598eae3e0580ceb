import TreeLint.Tree.Edit
import TreeLint.Shape.Bitwise
import TreeLint.Shape.LiteralComparison
import TreeLint.Shape.Method

/-!
Fixes that write an expression anew or drop a bound.
-/

namespace TreeLint.Fix

/-- Puts text in the place of the anchor, if the anchor has the shape that gives one. -/
def replaceAt (anchor : NodeId) (fault : ShapeFault) (text? : Subtree → Option String)
    : Edit Unit := do
  Edit.ensureNode anchor
  let text ← Edit.require anchor fault (((← Edit.current).subtree? anchor).bind text?)
  Edit.replaceWithText anchor text

/-- Puts what is left of a pointless bitwise expression in its place. -/
def simplifyAt (anchor : NodeId) : Edit Unit :=
  replaceAt anchor .notPointless fun node =>
    (BitwiseOperation.pointless? node).map (·.replacement)

/-- Lets the literal of a comparison be the receiver. -/
def flipEqualsAt (anchor : NodeId) : Edit Unit :=
  replaceAt anchor .notLiteralEquals fun node =>
    (LiteralComparison.ofCall? node).map (·.flipped)

/-- Cuts some nodes off their parents. -/
def detachAll : List NodeId → Edit Unit
  | [] => return ()
  | id :: rest => do
      Edit.detach id
      detachAll rest

/-- Drops the bounds of a type parameter that say nothing. -/
def removeObjectBoundAt (anchor : NodeId) : Edit Unit := do
  Edit.ensureNode anchor
  let some parameter := (← Edit.current).subtree? anchor | throw (.unknownNode anchor)
  detachAll (parameter.objectBounds.map (·.id))

end TreeLint.Fix
