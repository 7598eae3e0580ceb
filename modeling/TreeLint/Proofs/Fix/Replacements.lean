import TreeLint.Fix.Apply
import TreeLint.Proofs.Rule.Problems
import TreeLint.Proofs.Tree.Counterparts
import TreeLint.Proofs.Tree.Outcomes

/-! What the fixes that put text in the place of an expression do. The text has no type, no value
and no name, so an expression that had it as a part before is pointless, or a comparison with a
literal, only if it was so with the part that the text replaces.
-/

namespace TreeLint

-----------------------------------------------------------------------------------------
-- The shapes that the rules look for
-----------------------------------------------------------------------------------------

theorem BitwiseOperation.ofExpression?_eq_some_iff {expression : Subtree}
    {operation : BitwiseOperation}
    : ofExpression? expression = some operation
      ↔ expression.facts.operator = some operation.operator
        ∧ expression.typeName? = some operation.typeName
        ∧ expression.childWithRole? .lhs = some operation.lhs
        ∧ expression.childWithRole? .rhs = some operation.rhs
        ∧ operation.operator.isBitwise
        ∧ isNumber expression
        ∧ isNumber operation.lhs
        ∧ isNumber operation.rhs := by
  rw [ofExpression?]
  simp only [Option.bind_eq_bind, Option.bind_eq_some_iff]
  constructor
  · rintro ⟨operator, isOperator, typeName, typed, lhs, isLeft, rhs, isRight, tested⟩
    split at tested
    · next passes =>
        cases tested
        simp only [Bool.and_eq_true] at passes
        exact ⟨isOperator, typed, isLeft, isRight, passes.1.1.1, passes.1.1.2, passes.1.2, passes.2⟩
    · cases tested
  · rintro ⟨isOperator, typed, isLeft, isRight, bitwise, number, left, right⟩
    refine ⟨_, isOperator, _, typed, _, isLeft, _, isRight, if_pos ?_⟩
    rw [bitwise, number, left, right]
    rfl

/-- An operation is pointless if operands of it are zero or all bits where they are for another
operation with the same operator that is pointless.
-/
theorem BitwiseOperation.isPointless_of {operation other : BitwiseOperation}
    (pointless : other.isPointless) (operator : other.operator = operation.operator)
    (zeroLeft : other.isZero other.lhs → operation.isZero operation.lhs)
    (zeroRight : other.isZero other.rhs → operation.isZero operation.rhs)
    (onesLeft : other.isAllOnes other.lhs → operation.isAllOnes operation.lhs)
    (onesRight : other.isAllOnes other.rhs → operation.isAllOnes operation.rhs)
    : operation.isPointless := by
  rw [isPointless] at pointless ⊢
  rw [operator] at pointless
  cases isShift : operation.operator.isShift with
  | true =>
      rw [isShift] at pointless
      exact zeroRight pointless
  | false =>
      rw [isShift] at pointless
      simp only [Bool.false_eq_true, if_false, Bool.or_eq_true] at pointless ⊢
      exact pointless.imp (.imp (.imp zeroLeft zeroRight) onesLeft) onesRight

theorem LiteralComparison.ofCall?_eq_some_iff {call : Subtree} {comparison : LiteralComparison}
    : ofCall? call = some comparison
      ↔ call.name? = some comparison.method
        ∧ call.childrenWithRole .argument = [comparison.literal]
        ∧ call.childWithRole? .qualifier = some comparison.target
        ∧ methods.contains comparison.method
        ∧ isStringLiteral comparison.literal
        ∧ comparison.target.stripParentheses.kind ≠ .literal := by
  rw [ofCall?]
  simp only [Option.bind_eq_bind, Option.bind_eq_some_iff]
  constructor
  · rintro ⟨method, named, compared⟩
    split at compared
    · next literal arguments =>
        obtain ⟨target, isTarget, tested⟩ := Option.bind_eq_some_iff.mp compared
        split at tested
        · next passes =>
            cases tested
            simp only [Bool.and_eq_true, bne_iff_ne] at passes
            exact ⟨named, arguments, isTarget, passes.1.1, passes.1.2, passes.2⟩
        · cases tested
    · cases compared
  · rintro ⟨named, arguments, isTarget, isMethod, isLiteral, plain⟩
    refine ⟨_, named, ?_⟩
    rw [arguments]
    refine Option.bind_eq_some_iff.mpr ⟨_, isTarget, if_pos ?_⟩
    rw [isMethod, isLiteral, bne_iff_ne.mpr plain]
    rfl

namespace Tree

-----------------------------------------------------------------------------------------
-- Trees with text in the place of a node
-----------------------------------------------------------------------------------------

section Fragment

variable {tree : Tree} {anchor : NodeId} {text : String} {found now : Subtree}

theorem fragment_content_shown (shown : tree.subtree? found.id = some found)
    (nowShown : (tree.fragment anchor text).subtree? now.id = some now) (same : now.id = found.id)
    : now.content = if found.id = anchor then found.content.asText text else found.content := by
  have known := content?_of_shown nowShown
  rw [same, fragment_content?, content?_of_shown shown] at known
  split at known
  · next here => rw [if_pos here]; exact (Option.some.inj known).symm
  · next other => rw [if_neg other]; exact (Option.some.inj known).symm

/-- A node that is no text was there before, and is not the one in the place of which text was put.
-/
theorem fragment_kind?_before {id : NodeId} {kind : NodeKind} (noText : kind ≠ .fragment)
    (isKind : (tree.fragment anchor text).kind? id = some kind)
    : id ≠ anchor ∧ tree.kind? id = some kind := by
  rw [kind?, fragment_content?] at isKind
  split at isKind
  · cases known : tree.content? id with
    | none =>
        rw [known] at isKind
        cases isKind
    | some content =>
        rw [known] at isKind
        exact absurd (Option.some.inj isKind).symm noText
  · next other => exact ⟨other, isKind⟩

theorem fragment_kind_before {found now : Subtree} (shown : tree.subtree? found.id = some found)
    (nowShown : (tree.fragment anchor text).subtree? now.id = some now) (same : now.id = found.id)
    {kind : NodeKind} (noText : kind ≠ .fragment) (isKind : now.kind = kind)
    : found.kind = kind := by
  have known := (fragment_kind?_before noText (isKind ▸ kind?_of_shown nowShown)).2
  rw [same, kind?_of_shown shown] at known
  exact Option.some.inj known

/-- Text has the role of what it replaces. -/
theorem fragment_role (tree : Tree) (anchor : NodeId) (text : String) (id : NodeId) (role : Role)
    : ((tree.fragment anchor text).content? id).any (·.role == role)
      = (tree.content? id).any (·.role == role) := by
  rw [fragment_content?]
  split
  · cases tree.content? id <;> rfl
  · rfl

theorem fragment_childAt? {id : NodeId} (other : id ≠ anchor) (role : Role)
    : (tree.fragment anchor text).childAt? id role = tree.childAt? id role :=
  childAt?_congr (by rw [fragment_childIds, if_neg other]) fun child _ =>
    fragment_role tree anchor text child role

/-- A value that is seen around text was seen before the text was put there. -/
theorem fragment_constantAs?_before (shown : tree.subtree? found.id = some found)
    (nowShown : (tree.fragment anchor text).subtree? now.id = some now) (same : now.id = found.id)
    {type : String} {value : Constant} (valued : now.constantAs? type = some value)
    : found.constantAs? type = some value := by
  refine constantAs?_before (fun id content before => ?_) shown nowShown same valued
  rw [fragment_content?, fragment_childIds, before]
  split
  · exact ⟨_, rfl, Or.inr ⟨NodeKind.noConfusion, rfl⟩⟩
  · exact ⟨content, rfl, Or.inl ⟨rfl, rfl, rfl⟩⟩

/-- An operand that is a number is no text that was put in the place of another one. -/
private theorem fragment_operand (shown : tree.subtree? found.id = some found)
    (nowShown : (tree.fragment anchor text).subtree? now.id = some now) (same : now.id = found.id)
    (number : BitwiseOperation.isNumber now)
    : BitwiseOperation.isNumber found := by
  rw [BitwiseOperation.isNumber, Subtree.typeName?, fragment_content_shown shown nowShown same]
    at number
  split at number
  · cases number
  · exact number

/-- What is pointless beside text that replaces something was pointless before, and is not the
text.
-/
theorem fragment_pointless_before (shown : tree.subtree? found.id = some found)
    (nowShown : (tree.fragment anchor text).subtree? now.id = some now) (same : now.id = found.id)
    {operation : BitwiseOperation}
    (isOperation : BitwiseOperation.ofExpression? now = some operation)
    (pointless : operation.isPointless)
    : found.id ≠ anchor
      ∧ ∃ before, BitwiseOperation.ofExpression? found = some before ∧ before.isPointless := by
  obtain ⟨isOperator, typed, isLeft, isRight, bitwise, number, left, right⟩ :=
    BitwiseOperation.ofExpression?_eq_some_iff.mp isOperation
  have content := fragment_content_shown shown nowShown same
  have other : found.id ≠ anchor := by
    intro here
    rw [Subtree.facts, content, if_pos here] at isOperator
    cases isOperator
  rw [if_neg other] at content
  obtain ⟨lhs, wasLeft, leftSame, leftShown, leftNow⟩ :=
    childWithRole?_before shown nowShown same (fragment_childAt? other .lhs) isLeft
  obtain ⟨rhs, wasRight, rightSame, rightShown, rightNow⟩ :=
    childWithRole?_before shown nowShown same (fragment_childAt? other .rhs) isRight
  have seen {test : Constant → Bool} {part nowPart : Subtree}
      (partShown : tree.subtree? part.id = some part)
      (partNow : (tree.fragment anchor text).subtree? nowPart.id = some nowPart)
      (partSame : nowPart.id = part.id)
      (passes : (nowPart.constantAs? operation.typeName).any test)
      : (part.constantAs? operation.typeName).any test := by
    obtain ⟨value, valued, passed⟩ := (Option.any_eq_true _ _).mp passes
    exact (Option.any_eq_true _ _).mpr
      ⟨value, fragment_constantAs?_before partShown partNow partSame valued, passed⟩
  refine ⟨other, { operation with lhs, rhs }, ?_, ?_⟩
  · rw [BitwiseOperation.ofExpression?_eq_some_iff]
    rw [Subtree.facts, content] at isOperator
    rw [Subtree.typeName?, content] at typed
    rw [BitwiseOperation.isNumber, Subtree.typeName?, content] at number
    exact ⟨isOperator, typed, wasLeft, wasRight, bitwise, number,
      fragment_operand leftShown leftNow leftSame left,
      fragment_operand rightShown rightNow rightSame right⟩
  · exact BitwiseOperation.isPointless_of pointless rfl (seen leftShown leftNow leftSame)
      (seen rightShown rightNow rightSame) (seen leftShown leftNow leftSame)
      (seen rightShown rightNow rightSame)

/-- What compares with a literal beside text that replaces a call did so before, and is not the
text.
-/
theorem fragment_comparison_before (isCall : tree.kind? anchor = some .methodCall)
    (shown : tree.subtree? found.id = some found)
    (nowShown : (tree.fragment anchor text).subtree? now.id = some now) (same : now.id = found.id)
    {comparison : LiteralComparison} (compares : LiteralComparison.ofCall? now = some comparison)
    : found.id ≠ anchor ∧ ∃ before, LiteralComparison.ofCall? found = some before := by
  obtain ⟨named, arguments, isTarget, isMethod, isLiteral, plain⟩ :=
    LiteralComparison.ofCall?_eq_some_iff.mp compares
  have content := fragment_content_shown shown nowShown same
  have other : found.id ≠ anchor := by
    intro here
    rw [Subtree.name?, content, if_pos here] at named
    cases named
  rw [if_neg other] at content
  obtain ⟨target, wasTarget, targetSame, targetShown, targetNow⟩ :=
    childWithRole?_before shown nowShown same (fragment_childAt? other .qualifier) isTarget
  -- The only argument is a literal now, so it is not the text.
  have numbers : (found.childrenWithRole .argument).map Subtree.id = [comparison.literal.id] := by
    rw [← List.map_singleton, ← arguments, childrenWithRole_ids shown,
      childrenWithRole_ids nowShown, same, fragment_childIds, if_neg other]
    exact List.filter_congr fun child _ => (fragment_role tree anchor text child .argument).symm
  obtain ⟨literal, wasArguments, number⟩ := List.map_eq_singleton_iff.mp numbers
  have inside : literal ∈ found.children :=
    List.mem_of_mem_filter (wasArguments ▸ List.mem_singleton_self literal)
  have nowInside : comparison.literal ∈ now.children :=
    List.mem_of_mem_filter (arguments ▸ List.mem_singleton_self comparison.literal)
  have literalContent := fragment_content_shown (subtree?_of_mem_children shown inside).1
    (subtree?_of_mem_children nowShown nowInside).1 number.symm
  have literalSame : comparison.literal.content = literal.content := by
    rw [literalContent, if_neg]
    intro here
    rw [if_pos here] at literalContent
    rw [LiteralComparison.isStringLiteral, Subtree.kind, literalContent] at isLiteral
    cases isLiteral
  refine ⟨other, { comparison with target, literal },
    LiteralComparison.ofCall?_eq_some_iff.mpr ⟨?_, wasArguments, wasTarget, isMethod, ?_, ?_⟩⟩
  · exact (congrArg Content.name content).symm.trans named
  · rw [LiteralComparison.isStringLiteral, Subtree.kind, Subtree.typeName?, literalSame] at isLiteral
    exact isLiteral
  · have alike : ∀ id < tree.size,
        SeenAlike (· == .literal) tree (tree.fragment anchor text) id := by
      intro id old
      obtain ⟨content, before⟩ := content?_exists old
      rw [SeenAlike, kind?, kind?, fragment_content?, fragment_childIds, before]
      split
      · next here =>
          rw [← here, kind?, before] at isCall
          have wasCall : content.kind = .methodCall := Option.some.inj isCall
          exact ⟨_, _, rfl, rfl, by simp [wasCall, Content.asText], by simp [wasCall, Content.asText],
            fun around => absurd (wasCall.symm.trans around) (by decide)⟩
      · exact ⟨_, _, rfl, rfl, rfl, Iff.rfl, fun _ => rfl⟩
    have tested := stripParentheses_alike alike targetShown targetNow targetSame
    intro literalTarget
    rw [literalTarget] at tested
    exact plain (eq_of_beq tested)

end Fragment

end Tree

-----------------------------------------------------------------------------------------
-- What the fixes do
-----------------------------------------------------------------------------------------

/-- The text that the shape of the node gives stands in its place. -/
theorem Fix.replaceAt_succeeded {tree after : Tree} {anchor : NodeId} {fault : ShapeFault}
    {text? : Subtree → Option String}
    (succeeded : (replaceAt anchor fault text?).apply tree = (.ok (), after))
    : ∃ found text,
        tree.subtree? anchor = some found
        ∧ text? found = some text
        ∧ after = tree.fragment anchor text := by
  obtain ⟨_, _, rest⟩ := Edit.ensureNode_succeeded succeeded
  have looked := Edit.current_succeeded rest
  obtain ⟨text, given, replaced⟩ := Edit.require_succeeded looked
  obtain ⟨found, shown, isText⟩ := Option.bind_eq_some_iff.mp given
  exact ⟨found, text, shown, isText, Edit.replaceWithText_succeeded replaced⟩

/-- Where the shape of a node gives a text, it can be put in its place. -/
theorem Fix.replaceAt_ok {tree : Tree} {anchor : NodeId} {fault : ShapeFault}
    {text? : Subtree → Option String} {text : String} (writable : tree.writable)
    (given : (tree.subtree? anchor).bind text? = some text)
    : (replaceAt anchor fault text?).apply tree = (.ok (), tree.fragment anchor text) := by
  obtain ⟨found, shown, _⟩ := Option.bind_eq_some_iff.mp given
  obtain rfl := Tree.subtree?_id shown
  have present := Tree.lt_size_of_content? (Tree.content?_of_shown shown)
  rw [replaceAt, Edit.ensureNode_bind writable present, Edit.current_bind,
    Edit.require_bind given, Edit.replaceWithText_ok writable present]

end TreeLint
