import TreeLint.Outline.Builder
import TreeLint.Proofs.Expression.Reading
import TreeLint.Proofs.Fix.Replacements
import TreeLint.Proofs.Rule.Diagnostics
import TreeLint.Proofs.Tree.Texts

/-! What the complements stand for that are written for pointless expressions. The text of an
operand gets a `~` in front and no parentheses. Main result: it is read as the complement of the
whole operand exactly if the operand is not read as a binary expression, as each one is that is
put together from its sides.
-/

namespace TreeLint

namespace Subtree

/-- The text of the node is read as an expression. -/
def isReadable (node : Subtree) : Bool :=
  (Expression.ofText? node.sourceText).isSome

/-- The node is a binary expression without a text of the host, put together from two sides that
are read as expressions.
-/
structure JoinsExpressions (node : Subtree) : Prop where
  kind : node.kind = .binaryExpression
  textless : node.text? = none
  operator : node.facts.operator.isSome = true
  left : (node.childWithRole? .lhs).any isReadable = true
  right : (node.childWithRole? .rhs).any isReadable = true

instance (node : Subtree) : Decidable node.JoinsExpressions :=
  decidable_of_iff
    (node.kind = .binaryExpression
      ∧ node.text? = none
      ∧ node.facts.operator.isSome = true
      ∧ (node.childWithRole? .lhs).any isReadable = true
      ∧ (node.childWithRole? .rhs).any isReadable = true)
    ⟨fun ⟨kind, textless, operator, left, right⟩ => ⟨kind, textless, operator, left, right⟩,
      fun joins => ⟨joins.kind, joins.textless, joins.operator, joins.left, joins.right⟩⟩

/-- A node that joins expressions is read as a binary expression. -/
theorem JoinsExpressions.isBinary {node : Subtree} (joins : node.JoinsExpressions)
    : ∃ whole, Expression.ofText? node.sourceText = some whole ∧ whole.isBinary = true := by
  obtain ⟨operator, isOperator⟩ := Option.isSome_iff_exists.mp joins.operator
  obtain ⟨left, isLeft, leftReadable⟩ := (Option.any_eq_true _ _).mp joins.left
  obtain ⟨right, isRight, rightReadable⟩ := (Option.any_eq_true _ _).mp joins.right
  obtain ⟨first, isFirst⟩ := Option.isSome_iff_exists.mp leftReadable
  obtain ⟨second, isSecond⟩ := Option.isSome_iff_exists.mp rightReadable
  have text : node.sourceText
      = left.sourceText ++ " " ++ operator.symbol ++ " " ++ right.sourceText := by
    rw [sourceText_of_textless joins.textless, rebuilt, rebuild, joins.kind]
    simp only [valueAt?_texts, isOperator, isLeft, isRight]
    rfl
  rw [text]
  exact Expression.ofText?_operator operator isFirst isSecond

end Subtree

/-- What is written for the complement of an operand: the text of the operand with its first part
complemented. It is the complement of the whole operand exactly if the operand is not read as a
binary expression, and one that joins expressions is read so.
-/
structure BitwiseOperation.ComplementWritten (operation : BitwiseOperation) (operand : Subtree)
    : Prop where
  text : operation.replacement = "~" ++ operand.sourceText
  read
    : Expression.ofText? operation.replacement
      = (Expression.ofText? operand.sourceText).map .complementFirst
  whole_iff
    : ∀ whole,
        Expression.ofText? operand.sourceText = some whole
        → ((∃ part,
            whole = .operand part
            ∧ Expression.ofText? operation.replacement
              = some (.operand (.unary .complement part)))
          ↔ whole.isBinary = false)
  joined
    : operand.JoinsExpressions
      → ∃ whole,
          Expression.ofText? operand.sourceText = some whole ∧ whole.isBinary = true

/-- What is left of a number all of whose bits are flipped is its complement. -/
theorem BitwiseOperation.residue_flipped {operation : BitwiseOperation}
    (isXor : operation.operator = .xor)
    (noMask : operation.isAllOnes operation.lhs = false)
    (isMask : operation.isAllOnes operation.rhs = true)
    : operation.residue = .complement operation.lhs := by
  simp [residue, isXor, noMask, isMask]

/-- The complement of an operand is its text with a `~` in front. -/
theorem BitwiseOperation.complementWritten {operation : BitwiseOperation} {operand : Subtree}
    (isComplement : operation.residue = .complement operand)
    : operation.ComplementWritten operand := by
  have text : operation.replacement = "~" ++ operand.sourceText := by
    rw [replacement, isComplement]
    rfl
  have read : Expression.ofText? operation.replacement
      = (Expression.ofText? operand.sourceText).map .complementFirst := by
    rw [text, Expression.ofText?_complement]
  refine ⟨text, read, fun whole isWhole => ?_, Subtree.JoinsExpressions.isBinary⟩
  rw [read, isWhole, Option.map_some, ← Expression.complementFirst_eq_iff]
  simp only [Option.some.injEq]

/-- Each expression that is reported as pointless has a replacement, which the fix puts in its
place. If it is a complement, it is read as that of the whole operand exactly if the operand is
not read as a binary expression.
-/
theorem Rule.complement_written {tree : Tree} (reachable : tree.Reachable) {options : PassOptions}
    {flag : Option CancelFlag} {diagnostic : Diagnostic}
    (reported
      : diagnostic
        ∈ (Inspection.inspectTree pointlessBitwiseExpression tree options flag).reported)
    : ∃ expression operation,
        tree.subtree? diagnostic.anchor = some expression
        ∧ expression.kind = .binaryExpression
        ∧ BitwiseOperation.pointless? expression = some operation
        ∧ (∀ after,
            diagnostic.applyFix.apply tree = (.ok (), after)
            → after = tree.fragment diagnostic.anchor operation.replacement)
        ∧ ∀ operand,
            operation.residue = .complement operand → operation.ComplementWritten operand := by
  have coherent := reachable.coherent
  obtain ⟨_, _, expression, shown, isBinary, operation, isOperation, pointless⟩ :=
    hasProblem_of_reported .bitwise coherent reported
  have isPointless : BitwiseOperation.pointless? expression = some operation :=
    Option.filter_eq_some_iff.mpr ⟨isOperation, pointless⟩
  refine ⟨expression, operation, shown, isBinary, isPointless, fun after succeeded => ?_,
    fun operand isComplement => BitwiseOperation.complementWritten isComplement⟩
  obtain ⟨fix, isFix, applied⟩ := applyFix_reported coherent.toLinked reported succeeded
  cases isFix
  obtain ⟨found, text, isFound, isText, rfl⟩ := Fix.replaceAt_succeeded applied
  cases shown.symm.trans isFound
  rw [isPointless, Option.map_some] at isText
  rw [Option.some.inj isText]

/-- A file with a sum of which all bits are flipped. -/
def flippedSum : Document where
  root :=
    Outline.file.withChild <| (Outline.namedClass "A").withChild <|
      (Outline.method "m").withChild <| Outline.codeBlock.withChild <|
        Outline.expressionStatement <|
          (Outline.binary .xor
            ((Outline.binary .add ((Outline.referenceExpression "a").withType "int")
              ((Outline.referenceExpression "b").withType "int")).withType "int")
            (((Outline.literal "-1").withType "int").withConstant (-1))).withType "int"

/-- What the rule about pointless expressions tells about the file. -/
def flippedSumReports : List Diagnostic :=
  (Inspection.inspectTree Rule.pointlessBitwiseExpression (.ofDocument flippedSum) { }
    none).reported

/-- The exclusive disjunction in the file is reported, and its fix can be applied. -/
theorem flippedSum_reported
    : ∃ diagnostic ∈ flippedSumReports,
        diagnostic.anchor = 5 ∧ diagnostic.fix = some .simplify :=
  Diagnostic.exists_listed (by decide +kernel)

/-- The text that is written for the complement of the sum is read as a sum. -/
theorem flippedSum_read
    : ∃ diagnostic ∈ flippedSumReports,
        diagnostic.anchor = 5
        ∧ (diagnostic.applyFix.apply (.ofDocument flippedSum)).1 = .ok ()
        ∧ ((diagnostic.applyFix.apply (.ofDocument flippedSum)).2.content? 5).bind (·.text)
          = some "~a + b"
        ∧ Expression.ofText? "~a + b"
          = some
              (.binary .add (.operand (.unary .complement (.name "a")))
                (.operand (.name "b"))) := by
  obtain ⟨diagnostic, reported, anchor, fix⟩ := flippedSum_reported
  refine ⟨diagnostic, reported, anchor, ?_, ?_, rfl⟩ <;>
    rw [Diagnostic.applyFix, fix, anchor] <;> decide +kernel

/-- The sum joins two names, so what is written for its complement is none. -/
theorem flippedSum_joins
    : ∃ diagnostic ∈ flippedSumReports, ∃ expression operation,
        (Tree.ofDocument flippedSum).subtree? diagnostic.anchor = some expression
        ∧ BitwiseOperation.pointless? expression = some operation
        ∧ operation.residue = .complement operation.lhs
        ∧ operation.lhs.JoinsExpressions
        ∧ ¬∃ part,
            Expression.ofText? operation.replacement
              = some (.operand (.unary .complement part)) := by
  obtain ⟨diagnostic, reported, anchor, _⟩ := flippedSum_reported
  obtain ⟨expression, operation, shown, _, isPointless, _, written⟩ :=
    Rule.complement_written (.loaded flippedSum) reported
  have told
      : (((Tree.ofDocument flippedSum).subtree? 5).bind BitwiseOperation.pointless?).any
          (fun operation => decide
            (operation.operator = .xor
              ∧ operation.isAllOnes operation.lhs = false
              ∧ operation.isAllOnes operation.rhs = true
              ∧ operation.lhs.JoinsExpressions)) = true := by
    decide +kernel
  rw [← anchor, shown, Option.bind_some, isPointless, Option.any_some] at told
  obtain ⟨isXor, noMask, isMask, joins⟩ := of_decide_eq_true told
  have flipped := BitwiseOperation.residue_flipped isXor noMask isMask
  obtain ⟨whole, isWhole, isBinary⟩ := (written _ flipped).joined joins
  refine ⟨diagnostic, reported, expression, operation, shown, isPointless, flipped, joins, ?_⟩
  rintro ⟨part, complemented⟩
  rw [(written _ flipped).read, isWhole, Option.map_some] at complemented
  cases whole with
  | operand first => cases isBinary
  | binary operator left right => cases complemented

end TreeLint
