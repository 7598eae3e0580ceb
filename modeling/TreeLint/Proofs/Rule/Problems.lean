import TreeLint.Proofs.Rule.Anchors
import TreeLint.Proofs.Tree.Contents

/-! Six rules look at code: statements, expressions and variables. Each of them has a problem that
it looks for. Main result: what such a rule reports at a node is what has its problem and is to be
reported there, a variable at its declaration and everything else at itself.
-/

namespace TreeLint

-----------------------------------------------------------------------------------------
-- The problems of the rules
-----------------------------------------------------------------------------------------

/-- The second node is a local variable behind another one in the declaration that the first is. -/
def Tree.StandsBehind (tree : Tree) (declaration id : NodeId) : Prop :=
  tree.kind? declaration = some .declarationStatement
  ∧ tree.kind? id = some .localVariable
  ∧ ∃ before after,
      tree.childIds declaration = before ++ id :: after
      ∧ ∃ first ∈ before, tree.kind? first = some .localVariable

/-- The declaration stands at the start of a `for`. -/
def Tree.StartsLoop (tree : Tree) (declaration : NodeId) : Prop :=
  (∃ content, tree.content? declaration = some content ∧ content.role = .init)
  ∧ ∃ loop, tree.parent? declaration = some loop ∧ tree.kind? loop = some .forStatement

/-- The node is a field without a written type. -/
def Tree.BareField (tree : Tree) (id : NodeId) : Prop :=
  tree.kind? id = some .field
  ∧ ∀ child ∈ tree.childIds id, tree.kind? child ≠ some .typeElement

/-- The node is a call on the result of a call or on a new object. -/
def Subtree.CallsResult (node : Subtree) : Prop :=
  node.kind = .methodCall
  ∧ ∃ receiver,
      node.childWithRole? .qualifier = some receiver
      ∧ receiver.stripParentheses.kind ∈ [.methodCall, .newExpression]

/-- A field is above the node, at whatever distance. -/
def Tree.BelowField (tree : Tree) (id : NodeId) : Prop :=
  ∃ upper, tree.Above upper id ∧ tree.kind? upper = some .field

/-- The node has the problem that a rule about code looks for. -/
def Rule.Flags (tree : Tree) (node : Subtree) : Rule → Prop
  | .infiniteLoopStatement =>
      node.kind.isLoop ∧ node.mayComplete = false ∧ node.hasReturn = false
  | .pointlessBitwiseExpression =>
      node.kind = .binaryExpression
      ∧ ∃ operation, BitwiseOperation.ofExpression? node = some operation ∧ operation.isPointless
  | .chainedMethodCall ignoreFields =>
      node.CallsResult ∧ ¬(ignoreFields ∧ tree.BelowField node.id)
  | .multipleDeclaration =>
      (∃ declaration, tree.StandsBehind declaration node.id ∧ ¬tree.StartsLoop declaration)
      ∨ tree.BareField node.id
  | .literalAsArgToStringEquals =>
      node.kind = .methodCall ∧ ∃ comparison, LiteralComparison.ofCall? node = some comparison
  | .threadStopSuspendResume =>
      node.kind = .methodCall
      ∧ ∃ name ∈ Checker.threadControls,
          node.name? = some name
          ∧ ∃ declaration,
              tree.resolve? node.content = some declaration
              ∧ declaration.owner? tree = some "java.lang.Thread"
  | _ => False

/-- The rules that look at the code of members. -/
inductive Rule.LooksAtCode : Rule → Prop where
  | loops : LooksAtCode .infiniteLoopStatement
  | bitwise : LooksAtCode .pointlessBitwiseExpression
  | chains (ignoreFields : Bool) : LooksAtCode (.chainedMethodCall ignoreFields)
  | declarations : LooksAtCode .multipleDeclaration
  | comparisons : LooksAtCode .literalAsArgToStringEquals
  | threads : LooksAtCode .threadStopSuspendResume

-----------------------------------------------------------------------------------------
-- What the rules report at a node
-----------------------------------------------------------------------------------------

/-- The variables behind the first of a declaration, unless it stands at the start of a `for`. -/
def laterVariables (tree : Tree) (statement : Subtree) : List Subtree :=
  if statement.role == .init
      && (tree.parentContent? statement.id).any (·.kind == .forStatement) then
    []
  else
    (statement.childrenOfKind .localVariable).drop 1

/-- What a rule about code looks at: the kinds of nodes, and what it reports at each. -/
def Rule.reports? (tree : Tree) : Rule → NodeKind → Option (Subtree → List Subtree)
  | .infiniteLoopStatement, .forStatement | .infiniteLoopStatement, .whileStatement
  | .infiniteLoopStatement, .doWhileStatement =>
      some (Subtree.selfIf fun loop => !loop.mayComplete && !loop.hasReturn)
  | .pointlessBitwiseExpression, .binaryExpression =>
      some (Subtree.selfIf fun expression => (BitwiseOperation.pointless? expression).isSome)
  | .chainedMethodCall ignoreFields, .methodCall =>
      some <| Subtree.selfIf fun call =>
        Checker.isChained call
          && !(ignoreFields
            && (tree.findNode? (·.kind == .field) (tree.ancestors call.id)).isSome)
  | .multipleDeclaration, .declarationStatement => some (laterVariables tree)
  | .multipleDeclaration, .field | .multipleDeclaration, .enumConstant =>
      some <| Subtree.selfIf fun field =>
        field.kind != .enumConstant && (field.childrenOfKind .typeElement).isEmpty
  | .literalAsArgToStringEquals, .methodCall =>
      some (Subtree.selfIf fun call => (LiteralComparison.ofCall? call).isSome)
  | .threadStopSuspendResume, .methodCall =>
      some <| Subtree.selfIf fun call =>
        call.name?.any Checker.threadControls.contains
          && (tree.resolve? call.content).any (·.owner? tree == some "java.lang.Thread")
  | _, _ => none

/-- What a rule about code reports at a node outside classes. -/
def Rule.reportsAt (rule : Rule) (tree : Tree) (node : Subtree) : List Subtree :=
  (rule.reports? tree node.kind).elim [] fun reports => reports node

/-- A rule about code skips classes, and walks every node that it looks at. By cases on the rule and
on the kind of the node.
-/
theorem Rule.reactionFor?_code {rule : Rule} (code : rule.LooksAtCode) (context : PassContext)
    (kind : NodeKind)
    : rule.checker.reactionFor? context kind
      = if kind.isClass then
          some .skip
        else
          (rule.reports? context.tree kind).map .walk := by
  cases code <;> cases kind <;> rfl

/-- A rule about code stays out of classes, and walks every other node before it reports there. -/
theorem Rule.stepAt_code {rule : Rule} (code : rule.LooksAtCode) (context : PassContext)
    (around : Surroundings) (node : Subtree)
    : rule.checker.stepAt context around node
      = if node.kind.isClass then .skip else .walk around (rule.reportsAt context.tree node) := by
  rw [Checker.stepAt, reactionFor?_code code, reportsAt]
  split
  · rfl
  · cases rule.reports? context.tree node.kind <;> rfl

/-- The node at which a rule about code reports another one: the declaration for a local variable,
and the node itself otherwise.
-/
def Tree.reporter? (tree : Tree) (anchor : Subtree) : Option NodeId :=
  if anchor.kind = .localVariable then tree.parent? anchor.id else some anchor.id

-----------------------------------------------------------------------------------------
-- What is reported has the problem
-----------------------------------------------------------------------------------------

theorem Subtree.mem_selfIf_iff {test : Subtree → Bool} {node anchor : Subtree}
    : anchor ∈ node.selfIf test ↔ anchor = node ∧ test node := by
  rw [Subtree.selfIf]
  cases test node <;> simp

/-- What passes a test behind the first that does is what passes it behind another that does, by
induction on the list.
-/
theorem mem_drop_filter_iff {test : α → Bool} {item : α} {items : List α}
    : item ∈ (items.filter test).drop 1
      ↔ test item
        ∧ ∃ before after, items = before ++ item :: after ∧ ∃ first ∈ before, test first := by
  induction items with
  | nil => simp
  | cons head rest ih =>
      cases passes : test head with
      | true =>
          rw [List.filter_cons_of_pos passes, List.drop_succ_cons, List.drop_zero,
            List.mem_filter, and_comm]
          refine and_congr_right fun _ => ⟨fun member => ?_, ?_⟩
          · obtain ⟨before, after, rfl⟩ := List.append_of_mem member
            exact ⟨head :: before, after, rfl, head, List.mem_cons_self, passes⟩
          · rintro ⟨before, after, split, first, among, _⟩
            cases before with
            | nil => cases among
            | cons _ before => simp_all
      | false =>
          rw [List.filter_cons_of_neg (by simp [passes]), ih]
          refine and_congr_right fun _ => ⟨?_, ?_⟩
          · rintro ⟨before, after, rfl, first, among, firstPasses⟩
            exact ⟨head :: before, after, rfl, first, List.mem_cons_of_mem head among, firstPasses⟩
          · rintro ⟨before, after, split, first, among, firstPasses⟩
            cases before with
            | nil => cases among
            | cons other before =>
                obtain ⟨rfl, rfl⟩ := List.cons.inj split
                refine ⟨before, after, rfl, first, ?_, firstPasses⟩
                rcases List.mem_cons.mp among with rfl | later
                · exact absurd (passes.symm.trans firstPasses) (by simp)
                · exact later

/-- The node is a local variable behind the first of a declaration exactly if it stands behind
another one there.
-/
theorem Tree.standsBehind_iff {tree : Tree} {declaration id : NodeId}
    : tree.StandsBehind declaration id
      ↔ tree.kind? declaration = some .declarationStatement
        ∧ id ∈ (tree.variablesOf declaration).drop 1 := by
  rw [StandsBehind, variablesOf, mem_drop_filter_iff]
  simp only [beq_iff_eq]

/-- A variable that stands behind another one hangs below their declaration. -/
theorem Tree.StandsBehind.below {tree : Tree} (linked : tree.Linked) {declaration id : NodeId}
    (behind : tree.StandsBehind declaration id)
    : tree.parent? id = some declaration := by
  obtain ⟨_, _, before, after, split, _⟩ := behind
  exact linked.agree.mp (split ▸ List.mem_append_right before List.mem_cons_self)

/-- The test whether a declaration stands at the start of a `for`. -/
private theorem startsLoop_iff {tree : Tree} {statement : Subtree}
    (shown : tree.subtree? statement.id = some statement)
    : (statement.role == .init
          && (tree.parentContent? statement.id).any (·.kind == .forStatement)) = true
      ↔ tree.StartsLoop statement.id := by
  rw [Tree.StartsLoop, Tree.content?_of_shown shown, Tree.parentContent?, Bool.and_eq_true,
    beq_iff_eq, Option.any_bind]
  simp only [Option.some.injEq, exists_eq_left', Option.any_eq_true, Tree.kind?_eq_some_iff,
    Function.comp_apply, beq_iff_eq]
  rfl

/-- The variables reported at a declaration are those behind the first, by their numbers. -/
theorem mem_laterVariables_iff {tree : Tree} {statement anchor : Subtree}
    (shown : tree.subtree? statement.id = some statement)
    (declares : statement.kind = .declarationStatement)
    : anchor ∈ laterVariables tree statement
      ↔ tree.StandsBehind statement.id anchor.id
        ∧ ¬tree.StartsLoop statement.id
        ∧ tree.subtree? anchor.id = some anchor := by
  have isDeclaration : tree.kind? statement.id = some .declarationStatement :=
    (Tree.kind?_of_shown shown).trans (congrArg some declares)
  rw [laterVariables, ← startsLoop_iff shown, Tree.standsBehind_iff,
    ← Tree.childrenOfKind_localVariable shown, ← List.map_drop]
  constructor
  · intro member
    split at member
    · cases member
    · next inside =>
        have child := List.mem_of_mem_filter (List.mem_of_mem_drop member)
        exact ⟨⟨isDeclaration, List.mem_map_of_mem member⟩, inside,
          (Tree.subtree?_of_mem_children shown child).1⟩
  · rintro ⟨⟨_, listed⟩, inside, anchorShown⟩
    rw [if_neg inside]
    obtain ⟨other, member, same⟩ := List.mem_map.mp listed
    have child := List.mem_of_mem_filter (List.mem_of_mem_drop member)
    have otherShown := (Tree.subtree?_of_mem_children shown child).1
    rw [same, anchorShown] at otherShown
    cases otherShown
    exact member

/-- A field is bare if its subtree shows no written type. -/
theorem bareField_iff {tree : Tree} {field : Subtree}
    (shown : tree.subtree? field.id = some field)
    : tree.BareField field.id
      ↔ field.kind = .field ∧ (field.childrenOfKind .typeElement).isEmpty := by
  rw [Tree.BareField, Tree.kind?_of_shown shown, Option.some.injEq,
    Tree.childrenOfKind_isEmpty_iff shown]

/-- The test whether a call is left out because it is below a field. -/
private theorem belowField_iff {tree : Tree} (linked : tree.Linked) {id : NodeId}
    : (tree.findNode? (·.kind == .field) (tree.ancestors id)).isSome ↔ tree.BelowField id := by
  rw [Tree.findNode?, List.find?_isSome]
  simp only [linked.mem_ancestors, Option.any_eq_true, beq_iff_eq, Tree.BelowField,
    Tree.kind?_eq_some_iff]

/-- The test whether a call has a receiver that is a call or a new object. -/
theorem isChained_iff {call : Subtree}
    : Checker.isChained call
      ↔ ∃ receiver,
          call.childWithRole? .qualifier = some receiver
          ∧ receiver.stripParentheses.kind ∈ [.methodCall, .newExpression] := by
  rw [Checker.isChained, Option.any_eq_true]
  simp

/-- Where a rule looks only at nodes of some kinds, and reports them if they pass a test, these are
the nodes that it reports at themselves.
-/
private theorem mem_reportsAt_self {rule : Rule} {tree : Tree} {node anchor : Subtree}
    {looks : Prop} [Decidable looks] {test : Subtree → Bool}
    (reports : rule.reports? tree node.kind
      = if looks then some (Subtree.selfIf test) else none)
    : anchor ∈ rule.reportsAt tree node ↔ anchor = node ∧ looks ∧ test node := by
  rw [Rule.reportsAt, reports]
  split
  · next isLooked => simp [Subtree.mem_selfIf_iff, isLooked]
  · next isNotLooked => simp [isNotLooked]

/-- A node that is reported at itself is the one that the arena shows there. -/
private theorem reported_self_iff {tree : Tree} {node anchor : Subtree} (flags : Subtree → Prop)
    (shown : tree.subtree? node.id = some node)
    (noVariable : flags anchor → anchor.kind ≠ .localVariable)
    : anchor = node ∧ flags node
      ↔ flags anchor
        ∧ tree.reporter? anchor = some node.id
        ∧ tree.subtree? anchor.id = some anchor := by
  constructor
  · rintro ⟨rfl, flagged⟩
    exact ⟨flagged, if_neg (noVariable flagged), shown⟩
  · rintro ⟨flagged, reporter, anchorShown⟩
    rw [Tree.reporter?, if_neg (noVariable flagged)] at reporter
    rw [Option.some.inj reporter, shown] at anchorShown
    cases anchorShown
    exact ⟨rfl, flagged⟩

/-- A rule that reports nodes at themselves, and no variables, reports those with its problem. -/
private theorem mem_reportsAt_of_self {rule : Rule} {tree : Tree} {node anchor : Subtree}
    {looks : Prop} [Decidable looks] {test : Subtree → Bool}
    (shown : tree.subtree? node.id = some node)
    (reports : rule.reports? tree node.kind
      = if looks then some (Subtree.selfIf test) else none)
    (flags : looks ∧ test node ↔ rule.Flags tree node)
    (noVariable : rule.Flags tree anchor → anchor.kind ≠ .localVariable)
    : anchor ∈ rule.reportsAt tree node
      ↔ rule.Flags tree anchor
        ∧ tree.reporter? anchor = some node.id
        ∧ tree.subtree? anchor.id = some anchor := by
  rw [mem_reportsAt_self reports, flags]
  exact reported_self_iff (rule.Flags tree) shown noVariable

/-- The rule about declarations reports variables at their declaration and fields at themselves. -/
private theorem mem_reportsAt_declarations {tree : Tree} (linked : tree.Linked)
    {node anchor : Subtree} (shown : tree.subtree? node.id = some node)
    : anchor ∈ Rule.multipleDeclaration.reportsAt tree node
      ↔ Rule.multipleDeclaration.Flags tree anchor
        ∧ tree.reporter? anchor = some node.id
        ∧ tree.subtree? anchor.id = some anchor := by
  -- A flagged node is a variable reported at its declaration, or a field reported at itself.
  have flagged : Rule.multipleDeclaration.Flags tree anchor
        ∧ tree.reporter? anchor = some node.id ∧ tree.subtree? anchor.id = some anchor
      ↔ tree.StandsBehind node.id anchor.id ∧ ¬tree.StartsLoop node.id
          ∧ tree.subtree? anchor.id = some anchor
        ∨ anchor = node ∧ tree.BareField node.id := by
    constructor
    · rintro ⟨⟨declaration, behind, inside⟩ | field, reporter, anchorShown⟩
      · have isVariable := Tree.kind_of_shown anchorShown behind.2.1
        rw [Tree.reporter?, if_pos isVariable, behind.below linked] at reporter
        cases reporter
        exact Or.inl ⟨behind, inside, anchorShown⟩
      · have isField := Tree.kind_of_shown anchorShown field.1
        rw [Tree.reporter?, if_neg (by rw [isField]; decide)] at reporter
        rw [Option.some.inj reporter, shown] at anchorShown
        cases anchorShown
        exact Or.inr ⟨rfl, field⟩
    · rintro (⟨behind, inside, anchorShown⟩ | ⟨rfl, field⟩)
      · refine ⟨Or.inl ⟨node.id, behind, inside⟩, ?_, anchorShown⟩
        rw [Tree.reporter?, if_pos (Tree.kind_of_shown anchorShown behind.2.1), behind.below linked]
      · refine ⟨Or.inr field, ?_, shown⟩
        rw [Tree.reporter?, if_neg (by rw [Tree.kind_of_shown shown field.1]; decide)]
  rw [flagged]
  by_cases declares : node.kind = .declarationStatement
  · have reported : Rule.multipleDeclaration.reportsAt tree node = laterVariables tree node := by
      rw [Rule.reportsAt, declares]
      rfl
    have noField : ¬tree.BareField node.id := fun field => by
      have isField := ((bareField_iff shown).mp field).1
      exact absurd (declares.symm.trans isField) (by decide)
    rw [reported, mem_laterVariables_iff shown declares]
    simp only [noField, and_false, or_false]
  · have reports : Rule.multipleDeclaration.reports? tree node.kind
        = if node.kind = .field ∨ node.kind = .enumConstant then
            some <| Subtree.selfIf fun field =>
              field.kind != .enumConstant && (field.childrenOfKind .typeElement).isEmpty
          else
            none := by
      revert declares
      cases node.kind <;> first | exact fun _ => rfl | exact fun declares => absurd rfl declares
    have noDeclaration : ¬tree.StandsBehind node.id anchor.id := fun behind =>
      declares (Tree.kind_of_shown shown behind.1)
    rw [mem_reportsAt_self reports, bareField_iff shown]
    simp only [noDeclaration, false_and, false_or]
    refine and_congr_right fun _ => ?_
    rw [Bool.and_eq_true, bne_iff_ne]
    cases node.kind <;> simp

/-- A rule about code reports at a node what has its problem and is to be reported there. By cases
on the rule and on what it looks at.
-/
theorem Rule.mem_reportsAt_iff {rule : Rule} (code : rule.LooksAtCode) {tree : Tree}
    (linked : tree.Linked) {node anchor : Subtree} (shown : tree.subtree? node.id = some node)
    : anchor ∈ rule.reportsAt tree node
      ↔ rule.Flags tree anchor
        ∧ tree.reporter? anchor = some node.id
        ∧ tree.subtree? anchor.id = some anchor := by
  have noVariable {kind : NodeKind} (other : kind ≠ .localVariable)
      : anchor.kind = kind → anchor.kind ≠ .localVariable := fun same => same ▸ other
  cases code with
  | loops =>
      have reports : infiniteLoopStatement.reports? tree node.kind
          = if node.kind.isLoop then
              some (Subtree.selfIf fun loop => !loop.mayComplete && !loop.hasReturn)
            else
              none := by
        cases node.kind <;> rfl
      refine mem_reportsAt_of_self shown reports (by simp [Flags]) ?_
      intro ⟨loop, _⟩ isVariable
      rw [isVariable] at loop
      cases loop
  | bitwise =>
      have reports : pointlessBitwiseExpression.reports? tree node.kind
          = if node.kind = .binaryExpression then
              some (Subtree.selfIf fun node => (BitwiseOperation.pointless? node).isSome)
            else
              none := by
        cases node.kind <;> rfl
      refine mem_reportsAt_of_self shown reports ?_ fun flagged => noVariable (by decide) flagged.1
      simp [Flags, BitwiseOperation.pointless?, Option.any_eq_true]
  | chains ignoreFields =>
      have reports : (chainedMethodCall ignoreFields).reports? tree node.kind
          = if node.kind = .methodCall then
              some <| Subtree.selfIf fun call =>
                Checker.isChained call
                  && !(ignoreFields
                    && (tree.findNode? (·.kind == .field) (tree.ancestors call.id)).isSome)
            else
              none := by
        cases node.kind <;> rfl
      refine mem_reportsAt_of_self shown reports ?_ fun flagged => noVariable (by decide) flagged.1.1
      rw [Flags, Subtree.CallsResult, ← isChained_iff, ← belowField_iff linked]
      cases ignoreFields <;> simp [and_assoc]
  | declarations => exact mem_reportsAt_declarations linked shown
  | comparisons =>
      have reports : literalAsArgToStringEquals.reports? tree node.kind
          = if node.kind = .methodCall then
              some (Subtree.selfIf fun call => (LiteralComparison.ofCall? call).isSome)
            else
              none := by
        cases node.kind <;> rfl
      refine mem_reportsAt_of_self shown reports ?_ fun flagged => noVariable (by decide) flagged.1
      rw [Flags, Option.isSome_iff_exists]
  | threads =>
      have reports : threadStopSuspendResume.reports? tree node.kind
          = if node.kind = .methodCall then
              some <| Subtree.selfIf fun call =>
                call.name?.any Checker.threadControls.contains
                  && (tree.resolve? call.content).any
                    (·.owner? tree == some "java.lang.Thread")
            else
              none := by
        cases node.kind <;> rfl
      refine mem_reportsAt_of_self shown reports ?_ fun flagged => noVariable (by decide) flagged.1
      simp only [Flags, Option.any_eq_true, Bool.and_eq_true, List.contains_iff_mem, beq_iff_eq]
      constructor
      · rintro ⟨call, ⟨name, named, control⟩, resolved⟩
        exact ⟨call, name, control, named, resolved⟩
      · rintro ⟨call, name, control, named, resolved⟩
        exact ⟨call, ⟨name, named, control⟩, resolved⟩

/-- What has a problem of code is no class. -/
theorem Rule.isClass_of_flags {rule : Rule} (code : rule.LooksAtCode) {tree : Tree}
    {node : Subtree} (shown : tree.subtree? node.id = some node) (flagged : rule.Flags tree node)
    : node.kind.isClass = false := by
  cases code with
  | loops =>
      have loop := flagged.1
      revert loop
      cases node.kind <;> decide
  | bitwise => rw [flagged.1]; rfl
  | chains => rw [flagged.1.1]; rfl
  | declarations =>
      rcases flagged with ⟨_, behind, _⟩ | field
      · rw [Tree.kind_of_shown shown behind.2.1]; rfl
      · rw [Tree.kind_of_shown shown field.1]; rfl
  | comparisons => rw [flagged.1]; rfl
  | threads => rw [flagged.1]; rfl

end TreeLint
