import Mathlib.Data.List.DropRight
import Mathlib.Data.String.Basic
import TreeLint.Proofs.Rule.Diagnostics
import TreeLint.Proofs.Rule.Remedies
import TreeLint.Proofs.Template.Placeholders
import TreeLint.Proofs.Tree.Texts

/-! What becomes of program text that a rule writes into the template of a message. It is searched
for placeholders like the rest of the template. Main result: the messages about comparisons with a
literal and about pointless expressions tell the text of the program as it is exactly if no
placeholder is written in it.
-/

namespace TreeLint

namespace Template

variable {shown : String} {text : List Char} {c : Char}

-----------------------------------------------------------------------------------------
-- Text in a template
-----------------------------------------------------------------------------------------

/-- What becomes of text in a template when placeholders in it are filled in and dropped. -/
def absorb (shown : String) (text : List Char) : List Char :=
  Text.replaceAll location [] (Text.replaceAll reference shown.toList text)

/-- No placeholder is written in the text. -/
def Plain (text : List Char) : Prop :=
  ¬reference <:+: text ∧ ¬location <:+: text

instance (text : List Char) : Decidable (Plain text) :=
  inferInstanceAs (Decidable (_ ∧ _))

/-- The character is neither a blank nor one of a placeholder. -/
def Telling (c : Char) : Prop :=
  Text.isBlank c = false ∧ c ∉ reference ∧ c ∉ location

instance (c : Char) : Decidable (Telling c) :=
  inferInstanceAs (Decidable (_ ∧ _))

theorem render_eq_absorb (template shown : String)
    : render template shown
      = String.ofList (Text.dropBlanksRight (absorb shown template.toList)) :=
  rfl

/-- A character that is in no placeholder divides a template. -/
theorem absorb_divided (noReference : c ∉ reference) (noLocation : c ∉ location)
    (before behind : List Char)
    : absorb shown (before ++ c :: behind) = absorb shown before ++ c :: absorb shown behind := by
  rw [absorb, reference, Text.replaceAll_divided noReference, location,
    Text.replaceAll_divided noLocation]
  rfl

/-- Placeholders start with a character of their own. -/
theorem plain_of_not_mem (absent : '#' ∉ text) : Plain text :=
  ⟨fun occurs => absent (occurs.mem List.mem_cons_self),
    fun occurs => absent (occurs.mem List.mem_cons_self)⟩

theorem absorb_plain (plain : Plain text) : absorb shown text = text := by
  rw [absorb, Text.replaceAll_of_absent plain.1, Text.replaceAll_of_absent plain.2]

theorem absorb_reference : absorb shown reference = Text.replaceAll location [] shown.toList := by
  have whole := Text.replaceAll_append '#' ['r', 'e', 'f'] shown.toList []
  rw [List.append_nil] at whole
  rw [absorb, reference, whole]
  exact congrArg _ (List.append_nil _)

theorem absorb_location : absorb shown location = [] := by
  have absent : ¬reference <:+: location := by decide
  rw [absorb, Text.replaceAll_of_absent absent]
  rfl

/-- If what is filled in has a telling character, text in a template stays as it is, up to blanks at
the end, exactly if no placeholder is written in it.
-/
theorem absorb_same_iff (telling : c ∈ shown.toList) (tells : Telling c)
    : Text.dropBlanksRight (absorb shown text) = Text.dropBlanksRight text ↔ Plain text := by
  obtain ⟨noBlank, noReference, noLocation⟩ := tells
  constructor
  · intro same
    have absent : ¬reference <:+: text := by
      intro occurs
      have counts := congrArg (List.count c) same
      rw [count_dropBlanksRight noBlank, count_dropBlanksRight noBlank, absorb, location,
        Text.count_replaceAll_nil noLocation] at counts
      exact absurd counts (Nat.ne_of_gt (Text.count_lt_replaceAll noReference telling occurs))
    refine ⟨absent, fun occurs => ?_⟩
    have counts := congrArg (List.count '#') same
    rw [count_dropBlanksRight (by decide), count_dropBlanksRight (by decide), absorb,
      Text.replaceAll_of_absent absent] at counts
    exact absurd counts (Nat.ne_of_lt (Text.count_replaceAll_lt occurs))
  · intro plain
    rw [absorb_plain plain]

/-- The same without allowance for blanks. -/
theorem absorb_eq_iff (telling : c ∈ shown.toList) (tells : Telling c)
    : absorb shown text = text ↔ Plain text :=
  ⟨fun same => (absorb_same_iff telling tells).mp (congrArg _ same), absorb_plain⟩

end Template

open Template

variable {tree : Tree}

-----------------------------------------------------------------------------------------
-- Comparisons with a literal
-----------------------------------------------------------------------------------------

namespace LiteralComparison

/-- What is to be told about a comparison. -/
def complaint (comparison : LiteralComparison) (source : String) : String :=
  source ++ ": String literal is argument of ." ++ comparison.method
    ++ "(), instead of the target."

/-- The message is the complaint about the call, with the text of the call as the template leaves
it.
-/
structure Complained (comparison : LiteralComparison) (call : Subtree) (message : String)
    : Prop where
  told : message = comparison.complaint (.ofList (absorb comparison.method call.sourceText.toList))
  /-- The text of the call is told exactly if no placeholder is written in it. -/
  plain_iff : message = comparison.complaint call.sourceText ↔ Plain call.sourceText.toList

/-- The name of a method that compares has a character that is in no placeholder. -/
theorem telling_method {method : String} (isMethod : method ∈ methods) : 'q' ∈ method.toList := by
  rw [methods, List.mem_pair] at isMethod
  rcases isMethod with rfl | rfl <;> decide

/-- The template of the message about a comparison is filled in where the text of the call is. -/
theorem render_complaint {comparison : LiteralComparison} (isMethod : comparison.method ∈ methods)
    (source : String)
    : render (comparison.complaint source) comparison.method
      = comparison.complaint (.ofList (absorb comparison.method source.toList)) := by
  obtain ⟨rest, isRest, noHash, noBlank⟩
      : ∃ rest,
          (" String literal is argument of ." ++ comparison.method
            ++ "(), instead of the target.").toList = rest
          ∧ '#' ∉ rest
          ∧ Text.dropBlanksRight rest = rest := by
    rw [methods, List.mem_pair] at isMethod
    refine ⟨_, rfl, ?_⟩
    rcases isMethod with same | same <;> rw [same] <;> decide
  have whole (source : String)
      : (comparison.complaint source).toList = source.toList ++ ':' :: rest := by
    simp [complaint, ← isRest]
  rw [render_eq_absorb, whole, absorb_divided (by decide) (by decide),
    absorb_plain (plain_of_not_mem noHash), Text.dropBlanksRight_append_cons (by decide), noBlank]
  refine String.toList_injective ?_
  rw [String.toList_ofList, whole, String.toList_ofList]

/-- The complaint tells the text that it is about. -/
theorem complaint_injective (comparison : LiteralComparison)
    : Function.Injective comparison.complaint := by
  intro first second same
  have lists := congrArg String.toList same
  simp only [complaint, String.toList_append, List.append_assoc, List.append_left_inj] at lists
  exact String.toList_injective lists

/-- What the rule tells about a comparison. -/
theorem complained {comparison : LiteralComparison} {call : Subtree}
    (compares : ofCall? call = some comparison)
    : comparison.Complained call
        (render (Checker.literalAsArgToStringEquals.message tree call) call.shownText) := by
  obtain ⟨named, _, _, isMethod, _⟩ := ofCall?_eq_some_iff.mp compares
  have isMethod : comparison.method ∈ methods := List.contains_iff_mem.mp isMethod
  have message : Checker.literalAsArgToStringEquals.message tree call
      = comparison.complaint call.sourceText := by
    simp only [Checker.literalAsArgToStringEquals, named, Option.getD_some, complaint]
  have shown : call.shownText = comparison.method := by
    rw [Subtree.shownText, named]
    rfl
  have told := render_complaint isMethod call.sourceText
  rw [message, shown]
  refine ⟨told, ?_⟩
  rw [told, (complaint_injective comparison).eq_iff, String.ofList_eq]
  exact absorb_eq_iff (telling_method isMethod) (by decide)

end LiteralComparison

-----------------------------------------------------------------------------------------
-- Pointless expressions
-----------------------------------------------------------------------------------------

/-- The texts are the same up to blanks at the end. -/
def Text.Alike (first second : String) : Prop :=
  dropBlanksRight first.toList = dropBlanksRight second.toList

namespace BitwiseOperation

/-- What is to be told about a pointless expression that is shown as the text. -/
def advice (operation : BitwiseOperation) (shown : String) : String :=
  shown ++ " can be replaced with " ++ operation.replacement

/-- The message is the advice about the expression, with both texts in it as the template leaves
them.
-/
structure Advised (operation : BitwiseOperation) (expression : Subtree) (message : String)
    : Prop where
  told
    : message
      = .ofList
          (Text.dropBlanksRight
            (Text.replaceAll location [] expression.shownText.toList
              ++ " can be replaced with ".toList
              ++ absorb expression.shownText operation.replacement.toList))
  /-- Up to blanks at the end, the advice is told exactly if both texts come through. -/
  alike_iff
    : Text.Alike message (operation.advice expression.shownText)
      ↔ ¬location <:+: expression.shownText.toList
        ∧ Text.dropBlanksRight (absorb expression.shownText operation.replacement.toList)
          = Text.dropBlanksRight operation.replacement.toList
  /-- A replacement in which no placeholder is written comes through. -/
  plain
    : Plain operation.replacement.toList
      → absorb expression.shownText operation.replacement.toList = operation.replacement.toList
  /-- No other one does, if the expression is shown with a character that is in no placeholder. -/
  plain_iff
    : (∃ c ∈ expression.shownText.toList, Telling c)
      → (Text.dropBlanksRight (absorb expression.shownText operation.replacement.toList)
          = Text.dropBlanksRight operation.replacement.toList
        ↔ Plain operation.replacement.toList)
  /-- The operator is such a character, wherever the text is put together from the operands. -/
  telling
    : expression.name? = none
      → expression.text? = none
      → ∃ c ∈ expression.shownText.toList, Telling c

/-- The template of the message about a pointless expression is filled in piece by piece. -/
theorem render_advice (shown replacement : String)
    : render ("#ref can be replaced with " ++ replacement ++ " #loc") shown
      = .ofList
          (Text.dropBlanksRight
            (Text.replaceAll location [] shown.toList ++ " can be replaced with ".toList
              ++ absorb shown replacement.toList)) := by
  have pieces : ("#ref can be replaced with " ++ replacement ++ " #loc").toList
      = reference ++ ' ' :: ("can be replaced with".toList
          ++ ' ' :: (replacement.toList ++ ' ' :: location)) := by
    simp [reference, location]
  have between : Plain "can be replaced with".toList := plain_of_not_mem (by decide)
  rw [render_eq_absorb, pieces, absorb_divided (by decide) (by decide), absorb_reference,
    absorb_divided (by decide) (by decide), absorb_plain between,
    absorb_divided (by decide) (by decide), absorb_location]
  have regroup (first last : List Char)
      : first ++ ' ' :: ("can be replaced with".toList ++ ' ' :: (last ++ [' ']))
        = first ++ " can be replaced with ".toList ++ last ++ [' '] := by
    simp
  rw [regroup]
  exact congrArg _ (List.rdropWhile_concat_pos _ _ _ rfl)

/-- Blanks are cut only behind the words of the advice. -/
theorem dropBlanksRight_advice (first last : List Char)
    : Text.dropBlanksRight (first ++ " can be replaced with ".toList ++ last)
      = first ++ ' ' :: ("can be replaced wit".toList
          ++ 'h' :: Text.dropBlanksRight (' ' :: last)) := by
  have regroup : first ++ " can be replaced with ".toList ++ last
      = (first ++ " can be replaced wit".toList) ++ 'h' :: (' ' :: last) := by
    simp
  rw [regroup, Text.dropBlanksRight_append_cons (by decide)]
  simp

/-- With placeholders for the location dropped from the first text of an advice, it is the same advice
only if there are none.
-/
theorem dropBlanksRight_advice_iff (first last other : List Char)
    : Text.dropBlanksRight
          (Text.replaceAll location [] first ++ " can be replaced with ".toList ++ last)
        = Text.dropBlanksRight (first ++ " can be replaced with ".toList ++ other)
      ↔ ¬location <:+: first ∧ Text.dropBlanksRight last = Text.dropBlanksRight other := by
  rw [dropBlanksRight_advice, dropBlanksRight_advice]
  constructor
  · intro same
    have kept : ¬location <:+: first := by
      intro occurs
      have fewer : (Text.replaceAll location [] first).count '#' < first.count '#' :=
        Text.count_replaceAll_lt occurs
      have blanks : (Text.replaceAll location [] first).count ' ' = first.count ' ' :=
        Text.count_replaceAll_nil (by decide) first
      generalize Text.replaceAll location [] first = left at same fewer blanks
      rcases List.append_eq_append_iff.mp same with ⟨lost, rfl, starts⟩ | ⟨more, rfl, _⟩
      · -- What is lost would start with the blank of the advice, but no blank is lost.
        rw [List.count_append] at fewer blanks
        cases lost with
        | nil => simp at fewer
        | cons c lost =>
            cases (List.cons.inj starts).1
            simp at blanks
      · rw [List.count_append] at fewer
        omega
    rw [Text.replaceAll_of_absent kept, List.append_cancel_left_eq, List.cons.injEq,
      List.append_cancel_left_eq, List.cons.injEq] at same
    exact ⟨kept, Text.dropBlanksRight_cons_inj.mp same.2.2⟩
  · rintro ⟨kept, same⟩
    rw [Text.replaceAll_of_absent kept, Text.dropBlanksRight_cons_inj.mpr same]

/-- An expression whose text is put together shows its operator. -/
theorem telling_rebuilt {expression : Subtree} {operation : BitwiseOperation}
    (isBinary : expression.kind = .binaryExpression)
    (isOperation : ofExpression? expression = some operation)
    (nameless : expression.name? = none) (textless : expression.text? = none)
    : ∃ c ∈ expression.shownText.toList, Telling c := by
  obtain ⟨isOperator, _, _, _, bitwise, _⟩ := ofExpression?_eq_some_iff.mp isOperation
  have symbol : operation.operator.symbol.toList.any (decide <| Telling ·) := by
    revert bitwise
    cases operation.operator <;> decide
  obtain ⟨c, among, tells⟩ := List.any_eq_true.mp symbol
  refine ⟨c, ?_, of_decide_eq_true tells⟩
  rw [Subtree.shownText, nameless, textless, isBinary]
  change c ∈ expression.sourceText.toList
  rw [Subtree.sourceText_eq, textless, Option.getD_none, Subtree.rebuilt, Subtree.rebuild]
  simp only [isBinary, isOperator, Option.elim_some, String.toList_append, List.mem_append]
  exact .inl (.inl (.inr among))

/-- What the rule tells about a pointless expression. -/
theorem advised {expression : Subtree} {operation : BitwiseOperation}
    (isBinary : expression.kind = .binaryExpression)
    (isOperation : ofExpression? expression = some operation)
    : operation.Advised expression
        (render (Checker.pointlessBitwiseExpression.message tree expression)
          expression.shownText) := by
  have message : Checker.pointlessBitwiseExpression.message tree expression
      = "#ref can be replaced with " ++ operation.replacement ++ " #loc" := by
    simp only [Checker.pointlessBitwiseExpression, isOperation, Option.elim_some]
  have told := render_advice expression.shownText operation.replacement
  rw [message]
  refine ⟨told, ?_, absorb_plain, ?_, telling_rebuilt isBinary isOperation⟩
  · rw [Text.Alike, told, advice, String.toList_ofList, String.toList_append,
      String.toList_append]
    refine Iff.trans (Eq.congr_left ?_) (dropBlanksRight_advice_iff _ _ _)
    exact List.rdropWhile_idempotent _ _
  · rintro ⟨c, shown, tells⟩
    exact absorb_same_iff shown tells

end BitwiseOperation

-----------------------------------------------------------------------------------------
-- Reported messages
-----------------------------------------------------------------------------------------

namespace Rule

variable {options : PassOptions} {flag : Option CancelFlag} {diagnostic : Diagnostic}

/-- What a run of a rule about code reports is the diagnostic for a node with the problem of the
rule, also where the run is stopped.
-/
theorem diagnose_of_reported {rule : Rule} (code : rule.LooksAtCode) (linked : tree.Linked)
    (reported : diagnostic ∈ (Inspection.inspectTree rule tree options flag).reported)
    : ∃ scope anchor,
        tree.subtree? anchor.id = some anchor
        ∧ rule.Flags tree anchor
        ∧ diagnostic = rule.diagnose { tree, scope, options } anchor := by
  have undisturbed := rule.reported_undisturbed linked reported
  obtain ⟨scope, _, anchor, among, same⟩ :=
    (rule.mem_inspectTree_iff linked (by simp)).mp undisturbed
  have inScope : diagnostic
      ∈ (Inspection.inspectScope rule { tree, scope, options } none).reported := by
    rw [rule.inspectScope_eq linked (by simp)]
    exact List.mem_map.mpr ⟨anchor, among, same⟩
  obtain ⟨inner, shown, reports⟩ := inspectScope_provenance inScope
  exact ⟨scope, diagnose_of_mayReport code linked shown reports⟩

/-- The message about a comparison with a literal is the complaint about it, and tells the text of the
call exactly if no placeholder is written in it. The message about a pointless expression is the
advice to write what the fix writes. It tells how the expression is shown and what is written, up to
blanks at the end, exactly if `#loc` is not shown and what is written comes through; without
placeholders it does, and with one only if the expression is shown by placeholders alone.
-/
theorem message_plain_iff (reachable : tree.Reachable) (options : PassOptions)
    (flag : Option CancelFlag)
    : (∀ diagnostic
          ∈ (Inspection.inspectTree literalAsArgToStringEquals tree options flag).reported,
        ∃ call comparison,
          tree.subtree? diagnostic.anchor = some call
          ∧ LiteralComparison.ofCall? call = some comparison
          ∧ comparison.Complained call diagnostic.message)
      ∧ ∀ diagnostic
          ∈ (Inspection.inspectTree pointlessBitwiseExpression tree options flag).reported,
        ∃ expression operation,
          tree.subtree? diagnostic.anchor = some expression
          ∧ BitwiseOperation.pointless? expression = some operation
          ∧ (tree.writable
            → diagnostic.applyFix.apply tree
              = (.ok (), tree.fragment diagnostic.anchor operation.replacement))
          ∧ operation.Advised expression diagnostic.message := by
  have linked := reachable.coherent.toLinked
  constructor
  · intro diagnostic reported
    obtain ⟨_, call, shown, ⟨_, comparison, compares⟩, rfl⟩ :=
      diagnose_of_reported .comparisons linked reported
    exact ⟨call, comparison, shown, compares, LiteralComparison.complained compares⟩
  · intro diagnostic reported
    obtain ⟨_, expression, shown, ⟨isBinary, operation, isOperation, pointless⟩, rfl⟩ :=
      diagnose_of_reported .bitwise linked reported
    have isPointless : BitwiseOperation.pointless? expression = some operation :=
      Option.filter_eq_some_iff.mpr ⟨isOperation, pointless⟩
    refine ⟨expression, operation, shown, isPointless, fun writable => ?_,
      BitwiseOperation.advised isBinary isOperation⟩
    refine Fix.replaceAt_ok writable ?_
    change (tree.subtree? expression.id).bind _ = _
    rw [shown, Option.bind_some, isPointless, Option.map_some]

end Rule

/-- A file in which both placeholders are written in literals: one is compared with, the other is an
argument in a pointless expression.
-/
def placeholderLiterals : Document where
  root :=
    Outline.file.withChild <| (Outline.namedClass "A").withChild <|
      (Outline.method "m").withChild <|
        Outline.codeBlock.append
          [ Outline.expressionStatement
              ((Outline.call "equals" (some (Outline.referenceExpression "tag"))).withArgument
                ((Outline.literal "\"#ref\"").withType "java.lang.String")),
            Outline.expressionStatement
              ((Outline.binary .or
                (((Outline.call "parse" none).withArgument
                  (Outline.literal "\"#loc\"")).withType "int")
                (((Outline.literal "0").withType "int").withConstant 0)).withType "int") ]

/-- What a rule tells about the file. -/
def placeholderReports (rule : Rule) : List Diagnostic :=
  (Inspection.inspectTree rule (.ofDocument placeholderLiterals) { } none).reported

/-- The messages of a rule about the file, with the nodes and the fixes. -/
def placeholderMessages (rule : Rule) : List (NodeId × String × Option Fix) :=
  (placeholderReports rule).map fun diagnostic =>
    (diagnostic.anchor, diagnostic.message, diagnostic.fix)

theorem placeholderMessages_comparison
    : placeholderMessages .literalAsArgToStringEquals
      = [(5, "tag.equals(\"equals\"): String literal is argument of .equals(), instead of the target.",
          some .flipEquals)] := by
  decide +kernel

theorem placeholderMessages_pointless
    : placeholderMessages .pointlessBitwiseExpression
      = [(9, "parse(\"\") | 0 can be replaced with parse(\"\")", some .simplify)] := by
  decide +kernel

/-- Where there is one message, there is one diagnostic with it. -/
theorem placeholderMessages_reported {rule : Rule} {anchor : NodeId} {message : String}
    {fix : Option Fix} (tells : placeholderMessages rule = [(anchor, message, fix)])
    : ∃ diagnostic ∈ placeholderReports rule,
        diagnostic.anchor = anchor ∧ diagnostic.message = message ∧ diagnostic.fix = fix := by
  obtain ⟨diagnostic, same, told⟩ := List.map_eq_singleton_iff.mp tells
  obtain ⟨isAnchor, rest⟩ := Prod.mk.inj told
  obtain ⟨isMessage, isFix⟩ := Prod.mk.inj rest
  exact ⟨diagnostic, same ▸ List.mem_singleton_self diagnostic, isAnchor, isMessage, isFix⟩

/-- The messages about the file tell other texts than those that are written in it and by the fix. -/
theorem placeholderLiterals_changed
    : let tree := Tree.ofDocument placeholderLiterals
      (∃ diagnostic ∈ placeholderReports .literalAsArgToStringEquals,
        (tree.subtree? diagnostic.anchor).map Subtree.sourceText = some "tag.equals(\"#ref\")"
        ∧ diagnostic.message
          = "tag.equals(\"equals\"): String literal is argument of .equals(), instead of the target."
        ∧ diagnostic.message
          ≠ "tag.equals(\"#ref\"): String literal is argument of .equals(), instead of the target.")
      ∧ ∃ diagnostic ∈ placeholderReports .pointlessBitwiseExpression,
        (tree.subtree? diagnostic.anchor).map Subtree.shownText = some "parse(\"#loc\") | 0"
        ∧ ((diagnostic.applyFix.apply tree).2.content? diagnostic.anchor).bind (·.text)
          = some "parse(\"#loc\")"
        ∧ diagnostic.message = "parse(\"\") | 0 can be replaced with parse(\"\")"
        ∧ ¬Text.Alike diagnostic.message
          "parse(\"#loc\") | 0 can be replaced with parse(\"#loc\")" := by
  intro tree
  constructor
  · obtain ⟨diagnostic, reported, anchor, message, _⟩ :=
      placeholderMessages_reported placeholderMessages_comparison
    refine ⟨diagnostic, reported, ?_, message, ?_⟩
    · rw [anchor]
      decide +kernel
    · rw [message]
      decide
  · obtain ⟨diagnostic, reported, anchor, message, fix⟩ :=
      placeholderMessages_reported placeholderMessages_pointless
    refine ⟨diagnostic, reported, ?_, ?_, message, ?_⟩
    · rw [anchor]
      decide +kernel
    · rw [Diagnostic.applyFix, fix, anchor]
      decide +kernel
    · rw [message, Text.Alike]
      decide +kernel

/-- Both texts have a placeholder written in them, so neither is told as it is. -/
theorem placeholderLiterals_notTold
    : let tree := Tree.ofDocument placeholderLiterals
      (∃ diagnostic ∈ placeholderReports .literalAsArgToStringEquals,
        ∃ (call : Subtree) (comparison : LiteralComparison),
          tree.subtree? diagnostic.anchor = some call
          ∧ LiteralComparison.ofCall? call = some comparison
          ∧ diagnostic.message ≠ comparison.complaint call.sourceText)
      ∧ ∃ diagnostic ∈ placeholderReports .pointlessBitwiseExpression,
        ∃ (expression : Subtree) (operation : BitwiseOperation),
          tree.subtree? diagnostic.anchor = some expression
          ∧ diagnostic.applyFix.apply tree
            = (.ok (), tree.fragment diagnostic.anchor operation.replacement)
          ∧ ¬Text.Alike diagnostic.message (operation.advice expression.shownText) := by
  intro tree
  have texts : (tree.subtree? 5).map Subtree.sourceText = some "tag.equals(\"#ref\")"
      ∧ (tree.subtree? 9).map Subtree.shownText = some "parse(\"#loc\") | 0" := by
    decide +kernel
  obtain ⟨comparisons, pointless⟩ :=
    Rule.message_plain_iff (.loaded placeholderLiterals) { } none
  constructor
  · obtain ⟨diagnostic, reported, anchor, _⟩ :=
      placeholderMessages_reported placeholderMessages_comparison
    obtain ⟨call, comparison, shown, compares, complained⟩ := comparisons diagnostic reported
    refine ⟨diagnostic, reported, call, comparison, shown, compares,
      mt complained.plain_iff.mp ?_⟩
    have text := texts.1
    rw [← anchor, shown, Option.map_some] at text
    rw [Option.some.inj text]
    decide
  · obtain ⟨diagnostic, reported, anchor, _⟩ :=
      placeholderMessages_reported placeholderMessages_pointless
    obtain ⟨expression, operation, shown, _, fixes, advised⟩ := pointless diagnostic reported
    refine ⟨diagnostic, reported, expression, operation, shown, fixes rfl,
      fun alike => (advised.alike_iff.mp alike).1 ?_⟩
    have text := texts.2
    rw [← anchor, shown, Option.map_some] at text
    rw [Option.some.inj text]
    decide

end TreeLint
