import TreeLint.Subtree.Basic

/-!
Walking a subtree. A visitor says for some callbacks what happens at a node; what it does not say
means that the children are walked. Before each child it is asked whether to go on. Each kind of node
has a callback of its own, and each but the last of them falls back to a more general one: statements
and expressions to those of their group, anonymous classes to named ones, enum constants to fields,
and everything to the callback for any element.
-/

namespace TreeLint

/-- A place where a traversal may be told what to do. -/
inductive Callback where
  | element
  | statement
  | expression
  | ofKind (kind : NodeKind)
  deriving DecidableEq, Repr, Inhabited

namespace Callback

def name : Callback → String
  | .element => "element"
  | .statement => "statement"
  | .expression => "expression"
  | .ofKind kind => kind.name

/-- The callbacks that a node of the kind passes through until one of them is told what to do.
Text written by a fix has none of its own.
-/
def chain (kind : NodeKind) : List Callback :=
  let special := if kind = .fragment then [] else [.ofKind kind]
  let group :=
    if kind.isStatement then [.statement]
    else if kind.isExpression then [.expression]
    else if kind = .anonymousClass then [.ofKind .namedClass]
    else if kind = .enumConstant then [.ofKind .field]
    else []
  special ++ group ++ [.element]

theorem getLast?_chain (kind : NodeKind) : (chain kind).getLast? = some .element := by
  cases kind <;> rfl

end Callback

/-- What happens at a node: given the walk of its children, how the state changes. -/
abbrev Action (σ : Type) : Type :=
  Subtree → (σ → σ) → σ → σ

structure Visitor (σ : Type) where
  /-- The question asked before each child, which may itself change the state. -/
  goesOn : σ → Bool × σ := fun state => (true, state)
  /-- What happens at the callbacks that are told so. -/
  action? : Callback → Option (Action σ) := fun _ => none

namespace Visitor

/-- What happens at a node of the kind: the first callback told so decides, and with none the
children are walked.
-/
def actionFor (visitor : Visitor σ) (kind : NodeKind) : Action σ :=
  ((Callback.chain kind).findSome? visitor.action?).getD fun _ walk => walk

mutual
def visit (visitor : Visitor σ) : Subtree → σ → σ
  | .mk id content children, state =>
      visitor.actionFor content.kind (.mk id content children)
        (fun state => visitor.walk children state) state

/-- Visits the children of a node in order, as long as the visitor goes on. -/
def walk (visitor : Visitor σ) : List Subtree → σ → σ
  | [], state => state
  | node :: rest, state =>
      match visitor.goesOn state with
      | (true, state) => visitor.walk rest (visitor.visit node state)
      | (false, state) => state
end

theorem visit_eq (visitor : Visitor σ) (node : Subtree) (state : σ)
    : visitor.visit node state
      = visitor.actionFor node.kind node (visitor.walk node.children) state := by
  cases node with
  | mk id content children => rw [visit]; rfl

end Visitor

end TreeLint
