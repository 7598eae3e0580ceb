import TreeLint.Node.Modifier

/-!
The corrections that can be offered for a problem.
-/

namespace TreeLint

/-- A correction. What it does at a node is said by `Fix.apply`. -/
inductive Fix where
  | removeModifier (modifier : Modifier)
  | nameInnerClass
  /-- Gives each variable of a declaration its own. -/
  | splitDeclaration
  /-- Gives the receiver of a call a name. -/
  | introduceVariable
  /-- Puts the simpler form of a bitwise expression in its place. -/
  | simplify
  /-- Takes the bound `Object` away from a type parameter. -/
  | removeObjectBound
  /-- Swaps the receiver and the argument of a comparison. -/
  | flipEquals
  | rename (name : String)
  deriving DecidableEq, Repr, Inhabited

namespace Fix

def name : Fix → String
  | .removeModifier modifier => "Remove '" ++ modifier.name ++ "' modifier"
  | .nameInnerClass => "Convert to named inner class"
  | .splitDeclaration => "Split into multiple declarations"
  | .introduceVariable => "Introduce variable"
  | .simplify => "Simplify"
  | .removeObjectBound => "Remove redundant 'extends Object'"
  | .flipEquals => "Flip .equals()"
  | .rename name => "Rename to " ++ name

end Fix

end TreeLint
