import TreeLint.Proofs.Expression.Parts
import TreeLint.Proofs.Rule.Diagnostics
import TreeLint.Proofs.Shape.BitwiseValues

/-! What goes with the operand that a simplified expression does without. The operand that stays
absorbs the other one, or the other one is a constant that changes nothing. Main result: the calls of
the expression are those of the operand that stays exactly if the other one has none, and as long as
constants have none, calls get lost only to an operand that absorbs.
-/

namespace TreeLint

open Relation

/-- Evaluating a node of this kind runs code from elsewhere: it calls a method or creates an object.
-/
def NodeKind.isCall : NodeKind → Bool
  | .methodCall | .newExpression => true
  | _ => false

/-- The calls and creations at or below a node, in source order. -/
def Subtree.calls (node : Subtree) : List NodeId :=
  (node.nodes.filter (·.kind.isCall)).map (·.id)

namespace BitwiseOperation

variable {operation : BitwiseOperation} {dropped operand : Subtree}

/-- The operand decides the value of the operation alone: zero in a conjunction, or all ones in a
disjunction.
-/
def Absorbs (operation : BitwiseOperation) (operand : Subtree) : Prop :=
  operation.operator = .and ∧ operation.isZero operand = true
  ∨ operation.operator = .or ∧ operation.isAllOnes operand = true

/-- The operand is a constant, zero or all ones. -/
def IsMask (operation : BitwiseOperation) (operand : Subtree) : Prop :=
  operation.isZero operand = true ∨ operation.isAllOnes operand = true

/-- The operand that a residue is made of. -/
def Residue.node : Residue → Subtree
  | .operand node | .complement node => node

/-- One operand is not in what is left of the operation: the other one absorbs it, or it is a mask.
-/
structure Drops (operation : BitwiseOperation) (dropped : Subtree) : Prop where
  sides
    : operation.residue.node = operation.lhs ∧ dropped = operation.rhs
      ∨ operation.residue.node = operation.rhs ∧ dropped = operation.lhs
  reason : operation.Absorbs operation.residue.node ∨ operation.IsMask dropped

theorem drops_rhs (left : operation.residue.node = operation.lhs)
    (reason : operation.Absorbs operation.lhs ∨ operation.IsMask operation.rhs)
    : operation.Drops operation.rhs :=
  ⟨.inl ⟨left, rfl⟩, by rwa [left]⟩

theorem drops_lhs (right : operation.residue.node = operation.rhs)
    (reason : operation.Absorbs operation.rhs ∨ operation.IsMask operation.lhs)
    : operation.Drops operation.lhs :=
  ⟨.inr ⟨right, rfl⟩, by rwa [right]⟩

/-- A mask is a constant of the host. -/
theorem IsMask.folded (mask : operation.IsMask operand) : operand.folded?.isSome = true := by
  have constant {test : Constant → Bool}
      (passes : (operand.constantAs? operation.typeName).any test = true)
      : operand.folded?.isSome = true := by
    rw [Subtree.constantAs?_eq] at passes
    cases known : operand.folded? with
    | none =>
        rw [known] at passes
        cases passes
    | some folded => rfl
  rcases mask with zero | ones
  · exact constant zero
  · exact constant ones

/-- A pointless conjunction drops the mask of all ones, or the side that a zero absorbs. -/
theorem drops_and (pointless : operation.isPointless = true) (isAnd : operation.operator = .and)
    : ∃ dropped, operation.Drops dropped := by
  by_cases left : operation.isZero operation.lhs = true ∨ operation.isAllOnes operation.rhs = true
  · refine ⟨_, drops_rhs (by simp [residue, isAnd, left, Residue.node]) ?_⟩
    exact left.imp (fun zero => .inl ⟨isAnd, zero⟩) .inr
  · refine ⟨_, drops_lhs (by simp [residue, isAnd, left, Residue.node]) ?_⟩
    rcases isPointless_cases pointless (by rw [isAnd]; rfl) with zero | zero | ones | ones
    · exact absurd (.inl zero) left
    · exact .inl (.inl ⟨isAnd, zero⟩)
    · exact .inr (.inr ones)
    · exact absurd (.inr ones) left

/-- A pointless disjunction drops a zero, or the side that all ones absorb. -/
theorem drops_or (pointless : operation.isPointless = true) (isOr : operation.operator = .or)
    : ∃ dropped, operation.Drops dropped := by
  by_cases right : operation.isZero operation.lhs = true ∨ operation.isAllOnes operation.rhs = true
  · refine ⟨_, drops_lhs (by simp [residue, isOr, right, Residue.node]) ?_⟩
    exact (right.imp .inl fun ones => .inr ⟨isOr, ones⟩).symm
  · refine ⟨_, drops_rhs (by simp [residue, isOr, right, Residue.node]) ?_⟩
    rcases isPointless_cases pointless (by rw [isOr]; rfl) with zero | zero | ones | ones
    · exact absurd (.inl zero) right
    · exact .inr (.inl zero)
    · exact .inl (.inr ⟨isOr, ones⟩)
    · exact absurd (.inr ones) right

/-- A pointless exclusive disjunction drops a mask. -/
theorem drops_xor (pointless : operation.isPointless = true) (isXor : operation.operator = .xor)
    : ∃ dropped, operation.Drops dropped := by
  by_cases left : operation.isAllOnes operation.lhs = true
  · exact ⟨_, drops_lhs (by simp [residue, isXor, left, Residue.node]) (.inr (.inr left))⟩
  by_cases right : operation.isAllOnes operation.rhs = true
  · exact ⟨_, drops_rhs (by simp [residue, isXor, left, right, Residue.node]) (.inr (.inr right))⟩
  by_cases zero : operation.isZero operation.rhs = true
  · exact ⟨_, drops_rhs (by simp [residue, isXor, left, right, zero, Residue.node])
      (.inr (.inl zero))⟩
  · have sides := isPointless_cases pointless (by rw [isXor]; rfl)
    have zeroLeft := sides.resolve_right (not_or.mpr ⟨zero, not_or.mpr ⟨left, right⟩⟩)
    exact ⟨_, drops_lhs (by simp [residue, isXor, left, right, zero, Residue.node])
      (.inr (.inl zeroLeft))⟩

/-- A pointless operation drops one of its operands. -/
theorem exists_dropped (pointless : operation.isPointless = true)
    (bitwise : operation.operator.isBitwise = true)
    : ∃ dropped, operation.Drops dropped := by
  cases isShift : operation.operator.isShift with
  | true =>
      rw [isPointless, if_pos isShift] at pointless
      exact ⟨_, drops_rhs (by rw [residue_shift isShift, Residue.node]) (.inr (.inl pointless))⟩
  | false =>
      cases operator : operation.operator with
      | and => exact drops_and pointless operator
      | or => exact drops_or pointless operator
      | xor => exact drops_xor pointless operator
      | shiftLeft | shiftRight | shiftRightUnsigned =>
          rw [operator] at isShift
          cases isShift
      | _ =>
          rw [operator] at bitwise
          cases bitwise

/-- The calls of the operation are left exactly if there are none in the operand that goes. -/
theorem Drops.calls_iff (drops : operation.Drops dropped)
    : operation.residue.node.calls = operation.lhs.calls ++ operation.rhs.calls
      ↔ dropped.calls = [] := by
  rcases drops.sides with ⟨kept, rfl⟩ | ⟨kept, rfl⟩
  · rw [kept]
    exact List.self_eq_append_right
  · rw [kept]
    exact List.self_eq_append_left

/-- Where the host folds no operand with calls, they get lost only to an operand that decides the
value alone.
-/
theorem Drops.absorbs (drops : operation.Drops dropped)
    (quiet : dropped.folded?.isSome = true → dropped.calls = []) (loses : dropped.calls ≠ [])
    : operation.Absorbs operation.residue.node :=
  drops.reason.resolve_right fun mask => loses (quiet mask.folded)

/-- The text of what is left holds the text of every part that the operand is written with. -/
theorem replacement_infix {part : Subtree}
    (way : ReflTransGen Subtree.WrittenWith operation.residue.node part)
    : part.sourceText.toList <:+: operation.replacement.toList := by
  refine (Subtree.writtenWith_infix way).trans ?_
  rw [replacement]
  cases operation.residue with
  | operand node => exact List.infix_rfl
  | complement node =>
      rw [Residue.text, String.toList_append]
      exact (List.suffix_append _ _).isInfix

end BitwiseOperation

/-- What the fix of a pointless expression leaves of its calls: those of the operand that it keeps,
so all of them exactly if the operand that goes has none. That one goes because it is a mask or
because the other one absorbs it. The text that is written shows what the operand is written with.
-/
theorem Rule.simplify_keepsCalls_iff {tree : Tree} (reachable : tree.Reachable)
    {options : PassOptions} {flag : Option CancelFlag} {diagnostic : Diagnostic}
    (reported
      : diagnostic
        ∈ (Inspection.inspectTree pointlessBitwiseExpression tree options flag).reported)
    : ∃ expression operation dropped,
        tree.subtree? diagnostic.anchor = some expression
        ∧ BitwiseOperation.pointless? expression = some operation
        ∧ (∀ after,
            diagnostic.applyFix.apply tree = (.ok (), after)
            → after = tree.fragment diagnostic.anchor operation.replacement)
        ∧ operation.Drops dropped
        ∧ (operation.residue.node.calls = operation.lhs.calls ++ operation.rhs.calls
          ↔ dropped.calls = [])
        ∧ ((dropped.folded?.isSome = true → dropped.calls = [])
          → dropped.calls ≠ []
          → operation.Absorbs operation.residue.node)
        ∧ ∀ part,
            ReflTransGen Subtree.WrittenWith operation.residue.node part
            → part.sourceText.toList <:+: operation.replacement.toList := by
  obtain ⟨expression, operation, shown, _, isPointless, replaced⟩ :=
    replacement_reported reachable.coherent reported
  obtain ⟨isOperation, pointless⟩ := Option.filter_eq_some_iff.mp isPointless
  obtain ⟨_, _, _, _, bitwise, _⟩ :=
    BitwiseOperation.ofExpression?_eq_some_iff.mp isOperation
  obtain ⟨dropped, drops⟩ := BitwiseOperation.exists_dropped pointless bitwise
  exact ⟨expression, operation, dropped, shown, isPointless, replaced, drops, drops.calls_iff,
    drops.absorbs, fun _ => BitwiseOperation.replacement_infix⟩

/-- A file with a call of which every bit is masked. -/
def maskedCall : Document where
  root :=
    Outline.file.withChild <| (Outline.namedClass "A").withChild <|
      (Outline.method "m").withChild <| Outline.codeBlock.withChild <|
        Outline.expressionStatement <|
          (Outline.binary .and ((Outline.call "next" none).withType "int")
            (((Outline.literal "0").withType "int").withConstant 0)).withType "int"

/-- What the rule about pointless expressions tells about the file. -/
def maskedCallReports : List Diagnostic :=
  (Inspection.inspectTree Rule.pointlessBitwiseExpression (.ofDocument maskedCall) { }
    none).reported

/-- The conjunction in the file is reported with a fix. -/
theorem maskedCall_reported
    : ∃ diagnostic ∈ maskedCallReports,
        diagnostic.anchor = 5 ∧ diagnostic.fix = some .simplify :=
  Diagnostic.exists_listed (by decide +kernel)

/-- The operand that goes is a call: the fix leaves a zero. -/
theorem maskedCall_deleted
    : ∃ diagnostic ∈ maskedCallReports, ∃ operation,
        ((Tree.ofDocument maskedCall).subtree? diagnostic.anchor).bind
            BitwiseOperation.pointless?
          = some operation
        ∧ operation.residue = .operand operation.rhs
        ∧ operation.lhs.calls = [6]
        ∧ (diagnostic.applyFix.apply (.ofDocument maskedCall)).1 = .ok ()
        ∧ ((diagnostic.applyFix.apply (.ofDocument maskedCall)).2.content? 5).bind (·.text)
          = some "0" := by
  obtain ⟨diagnostic, reported, anchor, fix⟩ := maskedCall_reported
  refine ⟨diagnostic, reported, _, by rw [anchor]; rfl, rfl, rfl, ?_, ?_⟩ <;>
    rw [Diagnostic.applyFix, fix, anchor] <;> decide +kernel

/-- The zero absorbs the call, so not all calls are left. -/
theorem maskedCall_absorbed
    : ∃ diagnostic ∈ maskedCallReports, ∃ operation : BitwiseOperation, ∃ dropped : Subtree,
        ((Tree.ofDocument maskedCall).subtree? diagnostic.anchor).bind
            BitwiseOperation.pointless?
          = some operation
        ∧ operation.Drops dropped
        ∧ operation.Absorbs operation.residue.node
        ∧ dropped.calls = [6]
        ∧ operation.residue.node.calls ≠ operation.lhs.calls ++ operation.rhs.calls := by
  obtain ⟨diagnostic, reported, anchor, _⟩ := maskedCall_reported
  obtain ⟨expression, operation, dropped, shown, isPointless, _, drops, calls, absorbs, _⟩ :=
    Rule.simplify_keepsCalls_iff (.loaded maskedCall) reported
  have known
      : (((Tree.ofDocument maskedCall).subtree? 5).bind BitwiseOperation.pointless?).map
          (fun operation =>
            (operation.residue.node.calls, operation.lhs.calls, operation.lhs.folded?))
        = some ([], [6], none) := by
    decide +kernel
  rw [← anchor, shown, Option.bind_some, isPointless, Option.map_some] at known
  simp only [Option.some.injEq, Prod.mk.injEq] at known
  obtain ⟨left, lost, unfolded⟩ := known
  rcases drops.sides with ⟨kept, _⟩ | ⟨_, rfl⟩
  · rw [kept, lost] at left
    cases left
  · have loses : operation.lhs.calls ≠ [] := by
      rw [lost]
      decide
    have quiet : operation.lhs.folded?.isSome = true → operation.lhs.calls = [] := by
      rw [unfolded]
      exact fun folded => nomatch folded
    refine ⟨diagnostic, reported, operation, _, ?_, drops, absorbs quiet loses, lost,
      mt calls.mp loses⟩
    rw [shown, Option.bind_some, isPointless]

end TreeLint
