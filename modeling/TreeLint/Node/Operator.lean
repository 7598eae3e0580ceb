/-!
The binary operators of expressions and the groups that the rules ask for.
-/

namespace TreeLint

inductive Operator where
  | and
  | or
  | xor
  | shiftLeft
  | shiftRight
  | shiftRightUnsigned
  | add
  | sub
  | mul
  | div
  | rem
  | logicalAnd
  | logicalOr
  | eq
  | ne
  | lt
  | gt
  | le
  | ge
  deriving DecidableEq, Repr, Inhabited

namespace Operator

def all : List Operator :=
  [.and, .or, .xor, .shiftLeft, .shiftRight, .shiftRightUnsigned, .add, .sub, .mul, .div, .rem,
    .logicalAnd, .logicalOr, .eq, .ne, .lt, .gt, .le, .ge]

/-- The operator as it is written, which is also its name in documents. -/
def symbol : Operator → String
  | .and => "&"
  | .or => "|"
  | .xor => "^"
  | .shiftLeft => "<<"
  | .shiftRight => ">>"
  | .shiftRightUnsigned => ">>>"
  | .add => "+"
  | .sub => "-"
  | .mul => "*"
  | .div => "/"
  | .rem => "%"
  | .logicalAnd => "&&"
  | .logicalOr => "||"
  | .eq => "=="
  | .ne => "!="
  | .lt => "<"
  | .gt => ">"
  | .le => "<="
  | .ge => ">="

def ofSymbol? (symbol : String) : Option Operator :=
  all.find? (·.symbol == symbol)

def isShift : Operator → Bool
  | .shiftLeft | .shiftRight | .shiftRightUnsigned => true
  | _ => false

def isBitwise : Operator → Bool
  | .and | .or | .xor => true
  | op => op.isShift

theorem ofSymbol?_symbol (op : Operator) : ofSymbol? op.symbol = some op := by
  cases op <;> decide

end Operator

end TreeLint
