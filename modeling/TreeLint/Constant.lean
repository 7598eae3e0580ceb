import TreeLint.Subtree.Basic

/-!
Integral constants after a cast to a primitive type.
-/

namespace TreeLint

inductive IntegralType where
  | byte
  | short
  | char
  | int
  | long
  deriving DecidableEq, Repr, Inhabited

namespace IntegralType

def ofName? : String → Option IntegralType
  | "byte" | "java.lang.Byte" => some .byte
  | "short" | "java.lang.Short" => some .short
  | "char" | "java.lang.Character" => some .char
  | "int" | "java.lang.Integer" => some .int
  | "long" | "java.lang.Long" => some .long
  | _ => none

def name : IntegralType → String
  | .byte => "byte"
  | .short => "short"
  | .char => "char"
  | .int => "int"
  | .long => "long"

def width : IntegralType → Nat
  | .byte => 8
  | .short | .char => 16
  | .int => 32
  | .long => 64

def isSigned : IntegralType → Bool
  | .char => false
  | _ => true

end IntegralType

/-- A constant of an integral type: its bits, read with or without sign as the type says. -/
structure Constant where
  type : IntegralType
  value : Int
  deriving DecidableEq, Repr, Inhabited

namespace Constant

def ofInt (type : IntegralType) (value : Int) : Constant :=
  let values := Nat.pow 2 type.width
  { type, value := if type.isSigned then value.bmod values else value % values }

/-- A folded value cast to the named type, where that is an integral one. -/
def cast? (value : Int64) (typeName : String) : Option Constant :=
  (IntegralType.ofName? typeName).map (ofInt · value.toInt)

def isZero (constant : Constant) : Bool :=
  constant.value == 0

/-- Every bit of the type is set. -/
def isAllOnes (constant : Constant) : Bool :=
  constant.value == if constant.type.isSigned then -1 else Int.pow 2 constant.type.width - 1

/-- The constant as it is printed; a `long` is marked as one. -/
def text (constant : Constant) : String :=
  toString constant.value ++ if constant.type = .long then "L" else ""

end Constant

/-- The folded value of an expression cast to a type. Parentheses without a value of their own
have that of the expression inside.
-/
def Subtree.constantAs? (type : String) : Subtree → Option Constant
  | .mk _ content (inner :: _) =>
      if content.kind = .parenthesizedExpression ∧ content.facts.constant = none then
        inner.constantAs? type
      else
        content.facts.constant.bind (Constant.cast? · type)
  | .mk _ content [] => content.facts.constant.bind (Constant.cast? · type)

end TreeLint
