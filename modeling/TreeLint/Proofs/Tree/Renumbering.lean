import TreeLint.Proofs.Tree.Counterparts
import TreeLint.Shape.Bitwise
import TreeLint.Shape.LiteralComparison
import TreeLint.Shape.Method

/-! Subtrees under other numbers. What is asked of a subtree is asked of what its nodes say and of how
they hang together, so the answer is the same under other numbers; where the answer is a node, it is
the one with the other number.
-/

namespace TreeLint

namespace Subtree

-----------------------------------------------------------------------------------------
-- Other numbers
-----------------------------------------------------------------------------------------

/-- The subtree with other numbers. -/
def renumber (number : NodeId → NodeId) (node : Subtree) : Subtree :=
  node.recurse fun node children => .mk (number node.id) node.content (children.map (·.2))

variable {number : NodeId → NodeId}

theorem renumber_eq (number : NodeId → NodeId) (node : Subtree)
    : node.renumber number
      = .mk (number node.id) node.content (node.children.map (renumber number)) := by
  rw [renumber, recurse_eq, List.map_map]
  rfl

@[simp] theorem id_renumber (node : Subtree) : (node.renumber number).id = number node.id := by
  rw [renumber_eq, id]

@[simp] theorem content_renumber (node : Subtree)
    : (node.renumber number).content = node.content := by
  rw [renumber_eq, content]

@[simp] theorem children_renumber (node : Subtree)
    : (node.renumber number).children = node.children.map (renumber number) := by
  rw [renumber_eq, children]

@[simp] theorem kind_renumber (node : Subtree) : (node.renumber number).kind = node.kind := by
  rw [kind, kind, content_renumber]

@[simp] theorem name?_renumber (node : Subtree) : (node.renumber number).name? = node.name? := by
  rw [name?, name?, content_renumber]

@[simp] theorem text?_renumber (node : Subtree) : (node.renumber number).text? = node.text? := by
  rw [text?, text?, content_renumber]

@[simp] theorem role_renumber (node : Subtree) : (node.renumber number).role = node.role := by
  rw [role, role, content_renumber]

@[simp] theorem facts_renumber (node : Subtree) : (node.renumber number).facts = node.facts := by
  rw [facts, facts, content_renumber]

@[simp] theorem hasModifier_renumber (node : Subtree) (modifier : Modifier)
    : (node.renumber number).hasModifier modifier = node.hasModifier modifier := by
  rw [hasModifier, hasModifier, content_renumber]

@[simp] theorem typeName?_renumber (node : Subtree)
    : (node.renumber number).typeName? = node.typeName? := by
  rw [typeName?, typeName?, content_renumber]

/-- The nodes are the same under their other numbers, by induction on the subtree. -/
theorem nodes_renumber (node : Subtree)
    : (node.renumber number).nodes = node.nodes.map (renumber number) := by
  induction node using Subtree.induction with
  | step node ih =>
      rw [nodes_eq, nodes_eq, children_renumber, List.map_cons, List.flatMap_map, List.map_flatMap]
      exact congrArg _ (List.flatMap_congr ih)

/-- A recursion that does not look at numbers gives the same, by induction on the subtree. -/
theorem recurse_renumber {f : Subtree → List (Subtree × β) → β}
    (blind : ∀ node (children : List (Subtree × β)),
      f (node.renumber number) (children.map fun child => (child.1.renumber number, child.2))
        = f node children)
    (node : Subtree)
    : (node.renumber number).recurse f = node.recurse f := by
  induction node using Subtree.induction with
  | step node ih =>
      rw [recurse_eq, recurse_eq, children_renumber, ← blind node, List.map_map, List.map_map]
      refine congrArg _ (List.map_congr_left fun child member => ?_)
      rw [Function.comp_apply, Function.comp_apply, ih child member]

-----------------------------------------------------------------------------------------
-- Children
-----------------------------------------------------------------------------------------

@[simp] theorem childWithRole?_renumber (node : Subtree) (role : Role)
    : (node.renumber number).childWithRole? role
      = (node.childWithRole? role).map (renumber number) := by
  rw [childWithRole?, childWithRole?, children_renumber, List.find?_map]
  simp only [Function.comp_def, role_renumber]

@[simp] theorem childrenWithRole_renumber (node : Subtree) (role : Role)
    : (node.renumber number).childrenWithRole role
      = (node.childrenWithRole role).map (renumber number) := by
  rw [childrenWithRole, childrenWithRole, children_renumber, List.filter_map]
  simp only [Function.comp_def, role_renumber]

@[simp] theorem childrenOfKind_renumber (node : Subtree) (kind : NodeKind)
    : (node.renumber number).childrenOfKind kind
      = (node.childrenOfKind kind).map (renumber number) := by
  rw [childrenOfKind, childrenOfKind, children_renumber, List.filter_map]
  simp only [Function.comp_def, kind_renumber]

@[simp] theorem statements_renumber (node : Subtree)
    : (node.renumber number).statements = node.statements.map (renumber number) := by
  rw [statements, statements, children_renumber, List.filter_map]
  simp only [Function.comp_def, kind_renumber]

@[simp] theorem body?_renumber (node : Subtree)
    : (node.renumber number).body? = node.body?.map (renumber number) := by
  rw [body?, body?, childWithRole?_renumber, children_renumber, List.find?_map, Option.map_or]
  simp only [Function.comp_def, kind_renumber]

/-- By induction on the subtree. -/
@[simp] theorem stripParentheses_renumber (node : Subtree)
    : (node.renumber number).stripParentheses = node.stripParentheses.renumber number := by
  induction node using Subtree.induction with
  | step node ih =>
      by_cases around : node.kind = .parenthesizedExpression
      · have aroundThen := (@kind_renumber number node).trans around
        cases inside : node.children with
        | nil =>
            rw [stripParentheses_of_empty inside,
              stripParentheses_of_empty (by rw [children_renumber, inside, List.map_nil])]
        | cons inner rest =>
            have first : (node.renumber number).children = _ := children_renumber node
            rw [inside, List.map_cons] at first
            rw [stripParentheses_of_first around inside, stripParentheses_of_first aroundThen first]
            exact ih inner (inside ▸ List.mem_cons_self)
      · rw [stripParentheses_of_ne around,
          stripParentheses_of_ne ((kind_renumber node).trans_ne around)]

/-- By induction on the subtree. -/
@[simp] theorem constantAs?_renumber (node : Subtree) (type : String)
    : (node.renumber number).constantAs? type = node.constantAs? type := by
  induction node using Subtree.induction with
  | step node ih =>
      by_cases around : node.kind = .parenthesizedExpression ∧ node.facts.constant = none
      · have aroundThen : (node.renumber number).kind = .parenthesizedExpression
            ∧ (node.renumber number).facts.constant = none := by
          rwa [kind_renumber, facts_renumber]
        cases inside : node.children with
        | nil =>
            rw [constantAs?_of_empty around.2 inside,
              constantAs?_of_empty aroundThen.2 (by rw [children_renumber, inside, List.map_nil])]
        | cons inner rest =>
            have first : (node.renumber number).children = _ := children_renumber node
            rw [inside, List.map_cons] at first
            rw [constantAs?_of_first around inside, constantAs?_of_first aroundThen first]
            exact ih inner (inside ▸ List.mem_cons_self)
      · have own : ¬((node.renumber number).kind = .parenthesizedExpression
            ∧ (node.renumber number).facts.constant = none) := by
          rwa [kind_renumber, facts_renumber]
        rw [constantAs?_of_own around, constantAs?_of_own own, facts_renumber]

-----------------------------------------------------------------------------------------
-- Texts
-----------------------------------------------------------------------------------------

theorem rebuild_renumber (node : Subtree) (children : List (Subtree × String))
    : rebuild (node.renumber number)
        (children.map fun child => (child.1.renumber number, child.2))
      = rebuild node children := by
  simp only [rebuild, kind_renumber, name?_renumber, facts_renumber, valueAt?, List.find?_map,
    List.filter_map, List.map_map, Option.map_map, Function.comp_def, role_renumber, List.head?_map,
    Option.elim_map]

@[simp] theorem sourceText_renumber (node : Subtree)
    : (node.renumber number).sourceText = node.sourceText :=
  recurse_renumber (fun node children => by rw [text?_renumber, rebuild_renumber]) node

@[simp] theorem shownText_renumber (node : Subtree)
    : (node.renumber number).shownText = node.shownText := by
  rw [shownText, shownText, name?_renumber, text?_renumber, kind_renumber, sourceText_renumber]

@[simp] theorem objectBounds_renumber (parameter : Subtree)
    : (parameter.renumber number).objectBounds = parameter.objectBounds.map (renumber number) := by
  rw [objectBounds, objectBounds, childrenWithRole_renumber, List.filter_map]
  simp only [Function.comp_def, shownText_renumber]

-----------------------------------------------------------------------------------------
-- Flow of control
-----------------------------------------------------------------------------------------

theorem isEndless_renumber (condition : Option Subtree)
    : isEndless (condition.map (renumber number)) = isEndless condition := by
  cases condition with
  | none => rfl
  | some condition => simp [isEndless]

mutual
@[simp] theorem hasBreak_renumber (node : Subtree)
    : (node.renumber number).hasBreak = node.hasBreak := by
  cases node with
  | mk id content children =>
      rw [renumber_eq, hasBreak, hasBreak]
      exact hasBreakAmong_renumber children

theorem hasBreakAmong_renumber (nodes : List Subtree)
    : hasBreakAmong (nodes.map (renumber number)) = hasBreakAmong nodes := by
  cases nodes with
  | nil => rfl
  | cons node rest =>
      rw [List.map_cons, hasBreakAmong, hasBreakAmong, kind_renumber, hasBreak_renumber,
        hasBreakAmong_renumber rest]
end

mutual
@[simp] theorem hasReturn_renumber (node : Subtree)
    : (node.renumber number).hasReturn = node.hasReturn := by
  cases node with
  | mk id content children =>
      rw [renumber_eq, hasReturn, hasReturn]
      exact hasReturnAmong_renumber children

theorem hasReturnAmong_renumber (nodes : List Subtree)
    : hasReturnAmong (nodes.map (renumber number)) = hasReturnAmong nodes := by
  cases nodes with
  | nil => rfl
  | cons node rest =>
      rw [List.map_cons, hasReturnAmong, hasReturnAmong, kind_renumber, hasReturn_renumber,
        hasReturnAmong_renumber rest]
end

mutual
@[simp] theorem returnCount_renumber (node : Subtree)
    : (node.renumber number).returnCount = node.returnCount := by
  cases node with
  | mk id content children =>
      rw [renumber_eq, returnCount, returnCount]
      exact returnCountAmong_renumber children

theorem returnCountAmong_renumber (nodes : List Subtree)
    : returnCountAmong (nodes.map (renumber number)) = returnCountAmong nodes := by
  cases nodes with
  | nil => rfl
  | cons node rest =>
      rw [List.map_cons, returnCountAmong, returnCountAmong, kind_renumber, returnCount_renumber,
        returnCountAmong_renumber rest]
end

@[simp] theorem mustThrow_renumber (node : Subtree)
    : (node.renumber number).mustThrow = node.mustThrow :=
  recurse_renumber (fun node children => by
    simp only [facts_renumber, kind_renumber, List.any_map, Function.comp_def]) node

theorem bodyValue?_renumber (children : List (Subtree × β))
    : bodyValue? (children.map fun child => (child.1.renumber number, child.2))
      = bodyValue? children := by
  simp only [bodyValue?, List.find?_map, Function.comp_def, role_renumber, kind_renumber,
    ← Option.map_or, Option.map_map]

@[simp] theorem mayComplete_renumber (node : Subtree)
    : (node.renumber number).mayComplete = node.mayComplete :=
  recurse_renumber (fun node children => by
    simp only [facts_renumber, kind_renumber, bodyValue?_renumber, childWithRole?_renumber,
      isEndless_renumber, hasBreak_renumber, children_renumber, List.all_map, List.any_map,
      List.find?_map, Function.comp_def, role_renumber, mustThrow_renumber]
    cases children.find? fun child => child.1.role == .otherwise <;> rfl) node

@[simp] theorem methodMustThrow_renumber (method : Subtree)
    : (method.renumber number).methodMustThrow = method.methodMustThrow := by
  rw [methodMustThrow, methodMustThrow, facts_renumber, body?_renumber]
  cases method.body? with
  | none => rfl
  | some body => simp

-----------------------------------------------------------------------------------------
-- Methods and classes
-----------------------------------------------------------------------------------------

@[simp] theorem returnPointCount_renumber (method : Subtree)
    : (method.renumber number).returnPointCount = method.returnPointCount := by
  simp only [returnPointCount, mayFallThrough, facts_renumber, body?_renumber, Option.elim_map,
    Option.any_map, Function.comp_def, returnCount_renumber, statements_renumber,
    List.getLast?_map, Option.all_map, mayComplete_renumber]
  rfl

@[simp] theorem ordinaryMethods_renumber (node : Subtree)
    : (node.renumber number).ordinaryMethods = node.ordinaryMethods.map (renumber number) := by
  rw [ordinaryMethods, ordinaryMethods, childrenOfKind_renumber, List.filter_map]
  simp only [Function.comp_def, facts_renumber]

@[simp] theorem isSuperClone_renumber (node : Subtree)
    : (node.renumber number).isSuperClone = node.isSuperClone := by
  simp only [isSuperClone, kind_renumber, name?_renumber, childWithRole?_renumber, Option.any_map,
    stripParentheses_renumber]

@[simp] theorem callsSuperClone_renumber (node : Subtree)
    : (node.renumber number).callsSuperClone = node.callsSuperClone := by
  induction node using Subtree.induction with
  | step node ih =>
      rw [callsSuperClone_eq, callsSuperClone_eq node, children_renumber, List.any_map,
        Bool.eq_iff_iff, List.any_eq_true, List.any_eq_true]
      refine exists_congr fun child => and_congr_right fun member => ?_
      rw [Function.comp_apply, isSuperClone_renumber, kind_renumber, ih child member]

@[simp] theorem isCloneMethod_renumber (parent : Option Content) (method : Subtree)
    : (method.renumber number).isCloneMethod parent = method.isCloneMethod parent := by
  simp only [isCloneMethod, name?_renumber, hasModifier_renumber, childrenOfKind_renumber,
    List.isEmpty_map]

@[simp] theorem isWriteObject_renumber (method : Subtree)
    : (method.renumber number).isWriteObject = method.isWriteObject := by
  rw [isWriteObject, isWriteObject, name?_renumber, facts_renumber, childrenOfKind_renumber]
  cases method.childrenOfKind .parameter with
  | nil => rfl
  | cons first rest => cases rest <;> simp

@[simp] theorem isSerializable_renumber (node : Subtree)
    : (node.renumber number).isSerializable = node.isSerializable := by
  simp only [isSerializable, isInterface, blocksSerialization, facts_renumber,
    childrenOfKind_renumber, List.any_map, Function.comp_def, isWriteObject_renumber,
    methodMustThrow_renumber]

end Subtree

-----------------------------------------------------------------------------------------
-- Shapes
-----------------------------------------------------------------------------------------

open Subtree (renumber)

variable {number : NodeId → NodeId}

namespace BitwiseOperation

/-- The operation with operands under other numbers. -/
def renumber (number : NodeId → NodeId) (operation : BitwiseOperation) : BitwiseOperation :=
  { operation with
    lhs := operation.lhs.renumber number
    rhs := operation.rhs.renumber number }

@[simp] theorem isNumber_renumber (node : Subtree)
    : isNumber (node.renumber number) = isNumber node := by
  rw [isNumber, isNumber, Subtree.typeName?_renumber]

@[simp] theorem ofExpression?_renumber (expression : Subtree)
    : ofExpression? (expression.renumber number)
      = (ofExpression? expression).map (BitwiseOperation.renumber number) := by
  simp only [ofExpression?, Subtree.facts_renumber, Subtree.typeName?_renumber,
    Subtree.childWithRole?_renumber, Option.bind_eq_bind]
  cases expression.facts.operator <;> cases expression.typeName?
    <;> cases expression.childWithRole? .lhs <;> cases expression.childWithRole? .rhs
    <;> try rfl
  simp only [Option.bind_some, Option.map_some, isNumber_renumber]
  split <;> rfl

@[simp] theorem isZero_renumber (operation : BitwiseOperation) (operand : Subtree)
    : (operation.renumber number).isZero (operand.renumber number) = operation.isZero operand := by
  rw [isZero, isZero, Subtree.constantAs?_renumber]
  rfl

@[simp] theorem isAllOnes_renumber (operation : BitwiseOperation) (operand : Subtree)
    : (operation.renumber number).isAllOnes (operand.renumber number)
      = operation.isAllOnes operand := by
  rw [isAllOnes, isAllOnes, Subtree.constantAs?_renumber]
  rfl

@[simp] theorem isPointless_renumber (operation : BitwiseOperation)
    : (operation.renumber number).isPointless = operation.isPointless := by
  have lhs : (operation.renumber number).lhs = operation.lhs.renumber number := rfl
  have rhs : (operation.renumber number).rhs = operation.rhs.renumber number := rfl
  simp only [isPointless, lhs, rhs, isZero_renumber, isAllOnes_renumber]
  rfl

@[simp] theorem replacement_renumber (operation : BitwiseOperation)
    : (operation.renumber number).replacement = operation.replacement := by
  have lhs : (operation.renumber number).lhs = operation.lhs.renumber number := rfl
  have rhs : (operation.renumber number).rhs = operation.rhs.renumber number := rfl
  have operator : (operation.renumber number).operator = operation.operator := rfl
  have operand (node : Subtree)
      : (Residue.operand (node.renumber number)).text = (Residue.operand node).text :=
    Subtree.sourceText_renumber node
  have complement (node : Subtree)
      : (Residue.complement (node.renumber number)).text = (Residue.complement node).text :=
    congrArg ("~" ++ ·) (Subtree.sourceText_renumber node)
  simp only [replacement, residue, lhs, rhs, operator, isZero_renumber, isAllOnes_renumber]
  cases operation.operator <;> simp only [apply_ite Residue.text, operand, complement]

theorem isSome_pointless?_renumber (expression : Subtree)
    : (pointless? (expression.renumber number)).isSome = (pointless? expression).isSome := by
  rw [pointless?, pointless?, ofExpression?_renumber, Option.filter_map, Option.isSome_map]
  simp only [Function.comp_def, isPointless_renumber]

end BitwiseOperation

namespace LiteralComparison

@[simp] theorem isStringLiteral_renumber (node : Subtree)
    : isStringLiteral (node.renumber number) = isStringLiteral node := by
  rw [isStringLiteral, isStringLiteral, Subtree.kind_renumber, Subtree.typeName?_renumber]

theorem isSome_ofCall?_renumber (call : Subtree)
    : (ofCall? (call.renumber number)).isSome = (ofCall? call).isSome := by
  simp only [ofCall?, Subtree.name?_renumber, Subtree.childrenWithRole_renumber,
    Subtree.childWithRole?_renumber, Option.bind_eq_bind]
  cases call.name? with
  | none => rfl
  | some method =>
      rcases call.childrenWithRole .argument with _ | ⟨literal, _ | _⟩
      · rfl
      · cases call.childWithRole? .qualifier with
        | none => rfl
        | some target =>
            simp only [Option.bind_some, List.map_cons, List.map_nil, Option.map_some,
              isStringLiteral_renumber, Subtree.kind_renumber, Subtree.stripParentheses_renumber,
              apply_ite Option.isSome]
            rfl
      · rfl

end LiteralComparison

end TreeLint
