import TreeLint.Tree.Basic

/-!
What a reference or call points to: a declaration in the same tree, by its label, or one outside.
-/

namespace TreeLint

inductive Declaration where
  | inside (id : NodeId) (content : Content)
  | outside (symbol : Symbol)
  deriving DecidableEq, Repr, Inhabited

namespace Tree

def resolve? (tree : Tree) (content : Content) : Option Declaration :=
  match content.facts.resolvesTo with
  | none => none
  | some (.labelled label) => do
      let id ← tree.labelled? label
      return .inside id (← tree.content? id)
  | some (.external symbol) => some (.outside symbol)

end Tree

namespace Declaration

/-- The number of a declaration in the same tree. -/
def id? : Declaration → Option NodeId
  | .inside id _ => some id
  | .outside _ => none

/-- The kind of the declaration. A node that declares nothing has none. -/
def kind? : Declaration → Option SymbolKind
  | .outside symbol => some symbol.kind
  | .inside _ content =>
      match content.kind with
      | .namedClass | .anonymousClass | .typeParameter => some .classSymbol
      | .method => some .methodSymbol
      | .field | .enumConstant => some .fieldSymbol
      | .localVariable | .parameter => some .variableSymbol
      | _ => none

def modifiers : Declaration → List Modifier
  | .inside _ content => content.modifiers
  | .outside symbol => symbol.modifiers

def hasModifier (declaration : Declaration) (modifier : Modifier) : Bool :=
  declaration.modifiers.contains modifier

def qualifiedName? : Declaration → Option String
  | .inside _ content => content.fullName?
  | .outside symbol => some symbol.qualifiedName

/-- The qualified name of the class that declares the member. -/
def owner? (tree : Tree) : Declaration → Option String
  | .inside id _ => ((tree.enclosingClass? id).bind tree.content?).bind Content.fullName?
  | .outside symbol => symbol.owner

def isAnnotationType : Declaration → Bool
  | .inside _ content => content.kind == .namedClass && content.facts.classKind == .annotationType
  | .outside symbol => symbol.kind == .classSymbol && symbol.classKind == .annotationType

end Declaration

end TreeLint
