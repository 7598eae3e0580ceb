import TreeLint.Outline.Builder
import TreeLint.Proofs.Expression.Calls
import TreeLint.Proofs.Rule.Diagnostics
import TreeLint.Proofs.Rule.Messages

/-! What is written for a comparison that gets its literal for the receiver. Main result: the fix
writes the literal, the method and between the brackets the former receiver without parentheses, and
that is read as a call with this one argument exactly if the text of the receiver is read as an
expression. With a `super` that stands alone it is read as nothing.
-/

namespace TreeLint

namespace Subtree

/-- A `super` with nothing in front, with or without a text of the host. -/
def IsBareSuper (node : Subtree) : Prop :=
  node.kind = .superExpression ∧ (node.text?.or node.name?).getD "super" = "super"

instance (node : Subtree) : Decidable node.IsBareSuper :=
  inferInstanceAs (Decidable (_ ∧ _))

theorem IsBareSuper.sourceText {node : Subtree} (bare : node.IsBareSuper)
    : node.sourceText = "super" := by
  obtain ⟨isSuper, plain⟩ := bare
  rw [sourceText_eq, rebuilt, rebuild, isSuper]
  cases written : node.text? with
  | some text => simpa [written] using plain
  | none =>
      cases named : node.name? with
      | some name => simpa [written, named] using plain
      | none => rfl

end Subtree

/-- The node is written as a literal in double quotes. -/
def Subtree.Quotes (node : Subtree) (value : String) : Prop :=
  Token.ofText? node.sourceText = some [.literal value] ∧ value.toList.head? = some '"'

/-- A text that calls a method on a literal, with the text of a node between the brackets. -/
structure CallWritten (literal : Subtree) (method : String) (argument : Subtree) (written : String)
    : Prop where
  text
    : written = literal.sourceText ++ "." ++ method ++ "(" ++ argument.sourceText ++ ")"
  /-- It is read as the call with a single argument exactly if that is read as an expression. -/
  call_iff
    : ∀ value,
        literal.Quotes value
        → ∀ expression,
            (Expression.ofText? written
                = some (.operand (.call (.select (.literal value) method) [expression]))
              ↔ Expression.ofText? argument.sourceText = some expression)
  /-- With a `super` between the brackets it is read as no expression at all. -/
  unread
    : ∀ value, literal.Quotes value → argument.IsBareSuper → Expression.ofText? written = none

/-- What is written for a comparison is a call on the literal. -/
theorem LiteralComparison.flipped_written {comparison : LiteralComparison}
    (isMethod : comparison.method ∈ methods)
    : CallWritten comparison.literal comparison.method comparison.target.stripParentheses
        comparison.flipped := by
  have isName : Token.ofText? comparison.method = some [.name comparison.method] := by
    rw [methods, List.mem_pair] at isMethod
    rcases isMethod with same | same <;> rw [same] <;> decide
  refine ⟨rfl, ?_, ?_⟩
  · rintro value ⟨isText, quoted⟩ expression
    exact Expression.ofText?_call_iff isText quoted isName
  · rintro value ⟨isText, quoted⟩ bare
    rw [flipped, bare.sourceText, Expression.ofText?,
      Token.ofText?_call "super" isText quoted isName]
    rfl

/-- Each call that compares with a literal and is reported can be fixed. The fix writes the literal,
the unchanged method, and the former receiver without parentheses as the argument. This is read as a
call with that single argument exactly if the receiver is read as an expression, and with a `super`
that stands alone it is read as nothing.
-/
theorem Rule.flipsEquals_iff {tree : Tree} (reachable : tree.Reachable) {options : PassOptions}
    {flag : Option CancelFlag} {diagnostic : Diagnostic}
    (reported
      : diagnostic
        ∈ (Inspection.inspectTree literalAsArgToStringEquals tree options flag).reported)
    : ∃ call method literal target written,
        tree.subtree? diagnostic.anchor = some call
        ∧ call.name? = some method
        ∧ call.childrenWithRole .argument = [literal]
        ∧ call.childWithRole? .qualifier = some target
        ∧ (tree.writable
          → diagnostic.applyFix.apply tree = (.ok (), tree.fragment diagnostic.anchor written))
        ∧ CallWritten literal method target.stripParentheses written := by
  obtain ⟨_, call, shown, ⟨_, comparison, compares⟩, rfl⟩ :=
    diagnose_of_reported .comparisons reachable.coherent.toLinked reported
  obtain ⟨named, arguments, isTarget, isMethod, _⟩ :=
    LiteralComparison.ofCall?_eq_some_iff.mp compares
  refine ⟨call, comparison.method, comparison.literal, comparison.target, comparison.flipped, shown,
    named, arguments, isTarget, fun writable => ?_,
    LiteralComparison.flipped_written (List.contains_iff_mem.mp isMethod)⟩
  refine Fix.replaceAt_ok writable ?_
  change (tree.subtree? call.id).bind _ = _
  rw [shown, Option.bind_some, compares, Option.map_some]

/-- A file with the call `super.equals("x")`. -/
def superCompared : Document where
  root :=
    Outline.file.withChild <| (Outline.namedClass "A").withChild <|
      (Outline.method "m").withChild <| Outline.codeBlock.withChild <|
        Outline.expressionStatement <|
          (Outline.call "equals" (some (Outline.ofKind .superExpression))).withArgument
            ((Outline.literal "\"x\"").withType "java.lang.String")

/-- What the rule about comparisons with literals tells about the file. -/
def superComparedReports : List Diagnostic :=
  (Inspection.inspectTree Rule.literalAsArgToStringEquals (.ofDocument superCompared) { }
    none).reported

/-- The call in the file is reported with a fix. -/
theorem superCompared_reported
    : ∃ diagnostic ∈ superComparedReports,
        diagnostic.anchor = 5 ∧ diagnostic.fix = some .flipEquals :=
  Diagnostic.exists_listed (by decide +kernel)

/-- The fix writes a `super` as the argument, and what is written is read as nothing. -/
theorem superCompared_unreadable
    : ∃ diagnostic ∈ superComparedReports, ∃ target,
        ((Tree.ofDocument superCompared).subtree? diagnostic.anchor).bind
            (·.childWithRole? .qualifier)
          = some target
        ∧ target.stripParentheses.IsBareSuper
        ∧ (diagnostic.applyFix.apply (.ofDocument superCompared)).1 = .ok ()
        ∧ ((diagnostic.applyFix.apply (.ofDocument superCompared)).2.content? 5).bind (·.text)
          = some "\"x\".equals(super)"
        ∧ Expression.ofText? "super.equals(\"x\")"
          = some
              (.operand (.call (.select (.literal "super") "equals")
                [.operand (.literal "\"x\"")]))
        ∧ Expression.ofText? "\"x\".equals(super)" = none := by
  obtain ⟨diagnostic, reported, anchor, fix⟩ := superCompared_reported
  refine ⟨diagnostic, reported, _, by rw [anchor]; rfl, by decide +kernel, ?_, ?_, rfl, rfl⟩ <;>
    rw [Diagnostic.applyFix, fix, anchor] <;> decide +kernel

/-- The text that is written is no call of the method on the literal, as the receiver is a `super`. -/
theorem superCompared_noCall
    : ∃ diagnostic ∈ superComparedReports, ∃ target : Subtree, ∃ written,
        diagnostic.applyFix.apply (.ofDocument superCompared)
          = (.ok (), (Tree.ofDocument superCompared).fragment 5 written)
        ∧ target.stripParentheses.IsBareSuper
        ∧ written = "\"x\".equals(" ++ target.stripParentheses.sourceText ++ ")"
        ∧ Expression.ofText? target.stripParentheses.sourceText = none
        ∧ Expression.ofText? written = none := by
  obtain ⟨diagnostic, reported, anchor, _⟩ := superCompared_reported
  obtain ⟨call, method, literal, target, written, shown, named, arguments, isTarget, fixes, wrote⟩ :=
    Rule.flipsEquals_iff (.loaded superCompared) reported
  have known
      : ((Tree.ofDocument superCompared).subtree? 5).map (fun call =>
          (call.name?, (call.childrenWithRole .argument).map Subtree.sourceText,
            (call.childWithRole? .qualifier).all (·.stripParentheses.IsBareSuper)))
        = some (some "equals", ["\"x\""], true) := by
    decide +kernel
  rw [← anchor, shown, Option.map_some, named, arguments, isTarget, List.map_singleton,
    Option.all_some] at known
  simp only [Option.some.injEq, Prod.mk.injEq, List.cons.injEq, and_true,
    decide_eq_true_eq] at known
  obtain ⟨rfl, literalText, bare⟩ := known
  have quotes : literal.Quotes "\"x\"" := ⟨by rw [literalText]; rfl, rfl⟩
  have text := wrote.text
  rw [literalText] at text
  have nothing := wrote.unread _ quotes bare
  refine ⟨diagnostic, reported, target, written, anchor ▸ fixes rfl, bare, text, ?_, nothing⟩
  refine Option.eq_none_iff_forall_ne_some.mpr fun expression isArgument => ?_
  exact nomatch nothing.symm.trans ((wrote.call_iff _ quotes expression).mpr isArgument)

end TreeLint
