import TreeLint.Tree.Basic

/-!
The parts of a tree that passes run on: classes, methods and fields.
-/

namespace TreeLint

inductive ScopeKind where
  | classScope
  /-- Holds for methods and constructors. -/
  | methodScope
  | fieldScope
  deriving DecidableEq, Repr, Inhabited

namespace ScopeKind

/-- Every kind of scope, in the order of declaration. -/
def all : List ScopeKind :=
  [.classScope, .methodScope, .fieldScope]

def name : ScopeKind → String
  | .classScope => "class"
  | .methodScope => "method"
  | .fieldScope => "field"

def ofName? (name : String) : Option ScopeKind :=
  all.find? (·.name == name)

/-- The name of the kind in capitals, as in a printed scope. -/
def title (kind : ScopeKind) : String :=
  Text.joinCapitalized kind.name

def ofNodeKind? : NodeKind → Option ScopeKind
  | .namedClass | .anonymousClass => some .classScope
  | .method => some .methodScope
  | .field | .enumConstant => some .fieldScope
  | _ => none

end ScopeKind

/-- A part of a tree that one pass runs on. -/
structure Scope where
  kind : ScopeKind
  root : NodeId
  deriving DecidableEq, Repr, Inhabited

namespace Scope

def ofNode? (tree : Tree) (id : NodeId) : Option Scope := do
  let kind ← ScopeKind.ofNodeKind? (← tree.content? id).kind
  return { kind, root := id }

/-- The scopes of the given kinds, in pre-order of their roots. -/
def collect (tree : Tree) (kinds : List ScopeKind) : List Scope :=
  (tree.preorder.filterMap (ofNode? tree)).filter (kinds.contains ·.kind)

/-- The scope as it is printed for a reader of logs. -/
def text (scope : Scope) : String :=
  "Scope \x7b kind: " ++ scope.kind.title ++ ", root: NodeId(" ++ toString scope.root ++ ") \x7d"

end Scope

end TreeLint
