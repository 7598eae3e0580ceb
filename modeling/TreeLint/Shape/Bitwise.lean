import TreeLint.Constant
import TreeLint.Subtree.Text

/-!
Bitwise expressions with an operand that makes them do nothing: zero, or all bits set, in the type
of the whole expression.
-/

namespace TreeLint

/-- A bitwise expression whose operands are known to be numbers. -/
structure BitwiseOperation where
  operator : Operator
  typeName : String
  lhs : Subtree
  rhs : Subtree
  deriving Repr, Inhabited

namespace BitwiseOperation

/-- The names of the type of truth values, on which bitwise operators are logical. -/
def booleanTypes : List String :=
  ["boolean", "java.lang.Boolean"]

/-- The node has a type, and not that of truth values. -/
def isNumber (node : Subtree) : Bool :=
  node.typeName?.any (!booleanTypes.contains ·)

def ofExpression? (expression : Subtree) : Option BitwiseOperation := do
  let operator ← expression.facts.operator
  let typeName ← expression.typeName?
  let lhs ← expression.childWithRole? .lhs
  let rhs ← expression.childWithRole? .rhs
  if operator.isBitwise && isNumber expression && isNumber lhs && isNumber rhs then
    return { operator, typeName, lhs, rhs }
  else
    none

def isZero (operation : BitwiseOperation) (operand : Subtree) : Bool :=
  (operand.constantAs? operation.typeName).any (·.isZero)

def isAllOnes (operation : BitwiseOperation) (operand : Subtree) : Bool :=
  (operand.constantAs? operation.typeName).any (·.isAllOnes)

/-- An operand makes the operation pointless: a distance of zero for a shift, zero or all bits on
either side otherwise.
-/
def isPointless (operation : BitwiseOperation) : Bool :=
  let { lhs, rhs, .. } := operation
  if operation.operator.isShift then
    operation.isZero rhs
  else
    operation.isZero lhs || operation.isZero rhs || operation.isAllOnes lhs
      || operation.isAllOnes rhs

/-- What is left of a pointless operation: one operand, or its complement. -/
inductive Residue where
  | operand (node : Subtree)
  | complement (node : Subtree)
  deriving Repr, Inhabited

def Residue.text : Residue → String
  | .operand node => node.sourceText
  | .complement node => "~" ++ node.sourceText

def residue (operation : BitwiseOperation) : Residue :=
  let { lhs, rhs, .. } := operation
  match operation.operator with
  | .and =>
      if operation.isZero lhs || operation.isAllOnes rhs then .operand lhs else .operand rhs
  | .or =>
      if operation.isZero lhs || operation.isAllOnes rhs then .operand rhs else .operand lhs
  | .xor =>
      if operation.isAllOnes lhs then .complement rhs
      else if operation.isAllOnes rhs then .complement lhs
      else if operation.isZero rhs then .operand lhs
      else .operand rhs
  | _ => .operand lhs

/-- The text that may stand in the place of a pointless operation. -/
def replacement (operation : BitwiseOperation) : String :=
  operation.residue.text

def pointless? (expression : Subtree) : Option BitwiseOperation :=
  (ofExpression? expression).filter (·.isPointless)

end BitwiseOperation

end TreeLint
