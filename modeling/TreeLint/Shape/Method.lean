import TreeLint.Subtree.Flow
import TreeLint.Subtree.Text
import TreeLint.Traversal.Visitor

/-!
What rules ask about methods, their classes and type parameters.
-/

namespace TreeLint.Subtree

/-! ## Ways out of a method -/

/-- A method without a result can reach the end of its body. -/
def mayFallThrough (method : Subtree) : Bool :=
  (method.facts.isConstructor || method.facts.returnType == some "void")
    && method.body?.any fun body => body.statements.getLast?.all mayComplete

/-- The number of ways to return from a method: the `return` statements of its body, and the end
of the body if it can be reached.
-/
def returnPointCount (method : Subtree) : Nat :=
  method.body?.elim 0 returnCount + if method.mayFallThrough then 1 else 0

/-! ## Members of a class -/

def ordinaryMethods (node : Subtree) : List Subtree :=
  (node.childrenOfKind .method).filter (!·.facts.isConstructor)

/-- The class is an interface or an annotation type. -/
def isInterface (node : Subtree) : Bool :=
  node.facts.classKind == .interface || node.facts.classKind == .annotationType

/-! ## Cloning -/

/-- The node is a call `super.clone()`, in whichever parentheses. -/
def isSuperClone (node : Subtree) : Bool :=
  node.kind == .methodCall && node.name? == some "clone"
    && (node.childWithRole? .qualifier).any (·.stripParentheses.kind == .superExpression)

/-- Looks for a call `super.clone()`, and stops at the first one. Classes are not searched. -/
def superCloneSearch : Visitor Bool where
  goesOn found := (!found, found)
  action?
    | .ofKind .namedClass => some fun _ _ found => found
    | .ofKind .methodCall =>
        some fun call walk found => if call.isSuperClone then true else walk found
    | _ => none

/-- A call `super.clone()` is below the node. Nested classes are not searched. -/
def callsSuperClone (node : Subtree) : Bool :=
  superCloneSearch.walk node.children false

theorem superCloneSearch_actionFor (kind : NodeKind)
    : superCloneSearch.actionFor kind
      = match kind with
        | .namedClass | .anonymousClass => fun _ _ found => found
        | .methodCall => fun call walk found => if call.isSuperClone then true else walk found
        | _ => fun _ walk => walk := by
  cases kind <;> rfl

/-- A search that found a call looks at nothing more. -/
theorem superCloneSearch_done (nodes : List Subtree) : superCloneSearch.walk nodes true = true := by
  cases nodes <;> rfl

theorem not_isSuperClone {node : Subtree} (other : node.kind ≠ .methodCall)
    : node.isSuperClone = false := by
  simp [isSuperClone, other]

/-- A visit finds the call that the node is, or else one below it unless the node is a class. -/
theorem superCloneSearch_visit (node : Subtree)
    : superCloneSearch.visit node false
      = (node.isSuperClone || !node.kind.isClass && node.callsSuperClone) := by
  rw [Visitor.visit_eq, superCloneSearch_actionFor]
  by_cases isCall : node.kind = .methodCall
  · rw [isCall]
    cases found : node.isSuperClone with
    | true => exact if_pos found
    | false => exact if_neg (Bool.eq_false_iff.mp found)
  · rw [not_isSuperClone isCall]
    revert isCall
    cases node.kind <;> simp [NodeKind.isClass, callsSuperClone]

/-- A search comes to a call if one of the nodes is one or holds one, by induction on the nodes. -/
theorem superCloneSearch_walk (nodes : List Subtree)
    : superCloneSearch.walk nodes false
      = nodes.any fun node => node.isSuperClone || !node.kind.isClass && node.callsSuperClone := by
  induction nodes with
  | nil => rfl
  | cons node rest ih =>
      have step : superCloneSearch.walk (node :: rest) false
          = superCloneSearch.walk rest (superCloneSearch.visit node false) := rfl
      rw [step, List.any_cons, ← superCloneSearch_visit, ← ih]
      cases superCloneSearch.visit node false with
      | false => rfl
      | true => exact superCloneSearch_done rest

theorem callsSuperClone_eq (node : Subtree)
    : node.callsSuperClone
      = node.children.any fun child =>
          child.isSuperClone || !child.kind.isClass && child.callsSuperClone :=
  superCloneSearch_walk node.children

/-- The method is a `clone()` with a body to be written, inside the given parent. -/
def isCloneMethod (parent : Option Content) (method : Subtree) : Bool :=
  method.name? == some "clone" && !method.hasModifier .abstract
    && (method.childrenOfKind .parameter).isEmpty
    && parent.any fun parent =>
      parent.kind.isClass && parent.facts.classKind != .interface
        && parent.facts.classKind != .annotationType

/-! ## Serialization -/

/-- The names of the type that a class is written to when it is serialized. -/
def outputStreamTypes : List String :=
  ["java.io.ObjectOutputStream", "ObjectOutputStream"]

def isWriteObject (method : Subtree) : Bool :=
  method.name? == some "writeObject" && method.facts.returnType == some "void"
    && match method.childrenOfKind .parameter with
      | [parameter] => parameter.typeName?.any outputStreamTypes.contains
      | _ => false

/-- The class cannot be serialized, since writing an object of it always throws. -/
def blocksSerialization (node : Subtree) : Bool :=
  (node.childrenOfKind .method).any fun method => method.isWriteObject && method.methodMustThrow

def isSerializable (node : Subtree) : Bool :=
  !node.isInterface && node.facts.supertypes.contains "java.io.Serializable"
    && !node.blocksSerialization

/-! ## Bounds of type parameters -/

def objectNames : List String :=
  ["Object", "java.lang.Object"]

/-- The bounds of a type parameter that every type parameter has anyway: the topmost class. -/
def objectBounds (parameter : Subtree) : List Subtree :=
  (parameter.childrenWithRole .extended).filter (objectNames.contains ·.shownText)

end TreeLint.Subtree
