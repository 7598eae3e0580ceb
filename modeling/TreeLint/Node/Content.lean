import TreeLint.Node.Kind
import TreeLint.Node.Modifier
import TreeLint.Node.Operator
import TreeLint.Node.Role

/-!
What a node says about itself, whichever tree it stands in, and what the host knows about it beyond
its shape: types, folded constants, where references point, and answers to questions of control flow.
Every such fact is optional.
-/

namespace TreeLint

inductive ClassKind where
  | plain
  | interface
  | enum
  | annotationType
  deriving DecidableEq, Repr, Inhabited

namespace ClassKind

/-- Every flavour, in the order of declaration. -/
def all : List ClassKind :=
  [.plain, .interface, .enum, .annotationType]

def name : ClassKind → String
  | .plain => "class"
  | .interface => "interface"
  | .enum => "enum"
  | .annotationType => "annotation"

def ofName? (name : String) : Option ClassKind :=
  all.find? (·.name == name)

theorem ofName?_name (kind : ClassKind) : ofName? kind.name = some kind := by
  cases kind <;> decide

end ClassKind

/-- What kind of declaration a reference leads to. -/
inductive SymbolKind where
  | classSymbol
  | methodSymbol
  | fieldSymbol
  | variableSymbol
  deriving DecidableEq, Repr, Inhabited

namespace SymbolKind

def all : List SymbolKind :=
  [.classSymbol, .methodSymbol, .fieldSymbol, .variableSymbol]

def name : SymbolKind → String
  | .classSymbol => "class"
  | .methodSymbol => "method"
  | .fieldSymbol => "field"
  | .variableSymbol => "variable"

def ofName? (name : String) : Option SymbolKind :=
  all.find? (·.name == name)

theorem ofName?_name (kind : SymbolKind) : ofName? kind.name = some kind := by
  cases kind <;> decide

end SymbolKind

/-- A declaration outside the tree, in a library or another file. -/
structure Symbol where
  kind : SymbolKind
  qualifiedName : String
  /-- The qualified name of the declaring class, for members. -/
  owner : Option String := none
  modifiers : List Modifier := []
  classKind : ClassKind := .plain
  deriving DecidableEq, Repr, Inhabited

/-- Where a reference points: to a node of the same tree, by its label, or outside. -/
inductive Target where
  | labelled (label : String)
  | external (symbol : Symbol)
  deriving DecidableEq, Repr, Inhabited

/-- The facts that a host attaches to a node. A fact that is missing is answered from the shape
of the tree instead.
-/
structure Facts where
  isConstructor : Bool := false
  returnType : Option String := none
  /-- The type of an expression, field, variable or parameter. -/
  typeName : Option String := none
  /-- The folded value of an integral expression. -/
  constant : Option Int64 := none
  operator : Option Operator := none
  classKind : ClassKind := .plain
  qualifiedName : Option String := none
  /-- The supertypes of a class, transitively, by qualified name. -/
  supertypes : List String := []
  resolvesTo : Option Target := none
  completesNormally : Option Bool := none
  alwaysThrows : Option Bool := none
  deriving DecidableEq, Repr, Inhabited

/-- A range of bytes in the source text. -/
structure Span where
  offset : UInt64
  length : UInt64
  deriving DecidableEq, Repr, Inhabited

/-- A node without its place in a tree. -/
structure Content where
  kind : NodeKind
  /-- The name under which references of the same tree point here. -/
  label : Option String := none
  /-- The declared or referenced name. -/
  name : Option String := none
  /-- The source text, when the host gives it. -/
  text : Option String := none
  role : Role := .other
  modifiers : List Modifier := []
  span : Option Span := none
  facts : Facts := { }
  deriving DecidableEq, Repr, Inhabited

namespace Content

def hasModifier (content : Content) (modifier : Modifier) : Bool :=
  content.modifiers.contains modifier

/-- The qualified name of a class, or its simple name where the host gives no other. -/
def fullName? (content : Content) : Option String :=
  content.facts.qualifiedName.or content.name

end Content

end TreeLint
