import TreeLint.Proofs.Fix.FreshNames
import TreeLint.Proofs.Text.Identifiers

/-! Whether the names of the variables that are introduced for the receivers of calls are identifiers.
Main result: where the name of the receiver is legal, that of the variable is an identifier exactly if
it is no reserved word, what follows `get` in the name of a called method can begin an identifier, and
the name of a created class has no dot.
-/

namespace TreeLint

open Text

namespace Fix

variable {receiver : Subtree} {name : String}

/-- What begins an identifier is no dot. -/
theorem not_isWord_of_dot {chars : List Char} (dotted : '.' ∈ chars) : ¬IsWord chars := by
  intro isWord
  cases chars with
  | nil => exact isWord
  | cons first rest =>
      rcases List.mem_cons.mp dotted with rfl | behind
      · exact absurd isWord.1 (by decide)
      · exact absurd (isWord.2 '.' behind) (by decide)

theorem dropGet_of_not {chars : List Char}
    (other : ¬∃ c rest, chars = 'g' :: 'e' :: 't' :: c :: rest)
    : dropGet chars = chars := by
  rw [dropGet]
  exact fun c rest same => other ⟨c, rest, same⟩

theorem variableName_call (isCall : receiver.kind = .methodCall) (named : receiver.name? = some name)
    {first : Char} {rest : List Char} (base : dropGet name.toList = first :: rest)
    : (variableName receiver).toList = lower first ++ rest := by
  simp only [variableName, isCall, named, Option.elim_some, base, String.toList_ofList]

theorem variableName_creation (isNew : receiver.kind = .newExpression)
    (named : receiver.name? = some name) {first : Char} {rest : List Char}
    (base : name.toList = first :: rest)
    : (variableName receiver).toList = lower first ++ rest := by
  simp only [variableName, isNew, named, Option.elim_some, base, String.toList_ofList]

/-- The name that is made for a called method is an identifier exactly if it is not reserved and what
follows `get` can begin an identifier.
-/
theorem isIdentifier_call_iff (isCall : receiver.kind = .methodCall)
    (named : receiver.name? = some name) (legal : IsIdentifier name)
    : IsIdentifier (variableName receiver)
      ↔ variableName receiver ∉ reservedWords
        ∧ ∀ c rest, name.toList = 'g' :: 'e' :: 't' :: c :: rest → beginsIdentifier c = true := by
  have isWord := legal.1
  rw [IsIdentifier, and_comm]
  refine and_congr_right fun _ => ?_
  by_cases short : ∃ c rest, name.toList = 'g' :: 'e' :: 't' :: c :: rest
  · obtain ⟨c, rest, chars⟩ := short
    rw [chars] at isWord
    have behind : ∀ other ∈ rest, continuesIdentifier other = true := fun other member =>
      isWord.2 other (by simp [member])
    have base : dropGet name.toList = c :: rest := by
      rw [chars]
      rfl
    rw [variableName_call isCall named base, isWord_lower, and_iff_left behind, chars]
    constructor
    · rintro begins _ _ ⟨⟩
      exact begins
    · exact fun begins => begins c rest rfl
  · refine iff_of_true ?_ fun c rest chars => absurd ⟨c, rest, chars⟩ short
    cases chars : name.toList with
    | nil =>
        rw [chars] at isWord
        exact isWord.elim
    | cons first rest =>
        have base : dropGet name.toList = first :: rest := (dropGet_of_not short).trans chars
        rw [variableName_call isCall named base, isWord_lower]
        rwa [chars] at isWord

/-- The name that is made for a created class is an identifier exactly if it is not reserved and the
name of the class has no dot.
-/
theorem isIdentifier_creation_iff (isNew : receiver.kind = .newExpression)
    (named : receiver.name? = some name) (legal : IsQualifiedName name)
    : IsIdentifier (variableName receiver)
      ↔ variableName receiver ∉ reservedWords ∧ '.' ∉ name.toList := by
  rw [IsIdentifier, and_comm]
  refine and_congr_right fun _ => ?_
  cases chars : name.toList with
  | nil => exact absurd (legal [] (by rw [chars]; exact List.mem_cons_self)) (by decide)
  | cons first rest =>
      rw [variableName_creation isNew named chars, isWord_lower]
      constructor
      · exact fun isWord dotted => not_isWord_of_dot dotted isWord
      · intro plain
        have single : name.toList.splitOn '.' = [name.toList] := by
          refine List.splitOn_eq_splitOnP.trans (List.splitOnP_eq_singleton fun c member => ?_)
          rw [beq_eq_false_iff_ne]
          rintro rfl
          exact plain (chars ▸ member)
        have isWord := (legal name.toList (by rw [single]; exact List.mem_singleton_self _)).1
        rwa [String.toList_ofList, chars] at isWord

end Fix

/-- The fix of a reported chain, where the name of the receiver is legal, introduces a variable with
a legal name exactly if the name is no reserved word and nothing that cannot begin a name or stand in
it is taken from the receiver: what follows `get` begins an identifier, and no dot comes along.
-/
theorem Rule.introducesLegal_iff {ignoreFields : Bool} {tree after : Tree}
    (reachable : tree.Reachable) {options : PassOptions} {flag : Option CancelFlag}
    {diagnostic : Diagnostic}
    (reported
      : diagnostic
        ∈ (Inspection.inspectTree (chainedMethodCall ignoreFields) tree options flag).reported)
    (succeeded : diagnostic.applyFix.apply tree = (.ok (), after))
    : ∃ receiver statement block typeName,
        tree.childAt? diagnostic.anchor .qualifier = some receiver.id
        ∧ tree.subtree? receiver.id = some receiver
        ∧ tree.Hoisted diagnostic.anchor receiver statement block
            (Fix.variableName receiver.stripParentheses) typeName after
        ∧ receiver.stripParentheses.kind ∈ [.methodCall, .newExpression]
        ∧ ∀ name, receiver.stripParentheses.name? = some name →
            (receiver.stripParentheses.kind = .methodCall →
              IsIdentifier name →
                (IsIdentifier (Fix.variableName receiver.stripParentheses)
                  ↔ Fix.variableName receiver.stripParentheses ∉ reservedWords
                    ∧ ∀ c rest,
                        name.toList = 'g' :: 'e' :: 't' :: c :: rest
                        → beginsIdentifier c = true))
            ∧ (receiver.stripParentheses.kind = .newExpression →
              IsQualifiedName name →
                (IsIdentifier (Fix.variableName receiver.stripParentheses)
                  ↔ Fix.variableName receiver.stripParentheses ∉ reservedWords
                    ∧ '.' ∉ name.toList)) := by
  have coherent := reachable.coherent
  have linked := coherent.toLinked
  obtain ⟨attached, _, call, callShown, ⟨_, first, isFirst, kind⟩, _⟩ :=
    hasProblem_of_reported (.chains ignoreFields) coherent reported
  obtain ⟨fix, isFix, applied⟩ := applyFix_reported linked reported succeeded
  cases isFix
  have afterCoherent := Fix.coherent_of_applyAt coherent applied
  obtain ⟨receiver, statement, block, typeName, shown, inBlock, _, introduces, rfl⟩ :=
    Fix.introduceVariable_names coherent applied
  have hoisted := introduces.hoisted coherent shown inBlock (coherent.attached_iff.mpr attached)
    afterCoherent
  have callId := Tree.subtree?_id callShown
  rw [← callId] at callShown
  have number : first.id = receiver.id := by
    have receiverAt := introduces.receiverAt
    rw [← callId, ← Tree.childWithRole?_id callShown, isFirst] at receiverAt
    exact Option.some.inj receiverAt
  obtain rfl : first = receiver := by
    have firstShown :=
      (Tree.subtree?_of_mem_children callShown (List.mem_of_find?_eq_some isFirst)).1
    rw [number, shown] at firstShown
    exact (Option.some.inj firstShown).symm
  have isName
      : tree.receiverName diagnostic.anchor = Fix.variableName first.stripParentheses := by
    rw [Tree.receiverName, ← callId, callShown, Option.bind_some, isFirst, Option.elim_some]
  refine ⟨first, statement, block, typeName, introduces.receiverAt, shown, isName ▸ hoisted, kind,
    fun name named => ⟨fun isCall legal => ?_, fun isNew legal => ?_⟩⟩
  · exact Fix.isIdentifier_call_iff isCall named legal
  · exact Fix.isIdentifier_creation_iff isNew named legal

/-- A file with calls on the results of `o.getClass()`, `new java.util.Date()` and `o.get2()`. -/
def chainsOfNames : Document where
  root :=
    Outline.file.withChild <| (Outline.namedClass "A").withChild <|
      (Outline.method "m").withChild <|
        ((Outline.codeBlock.withChild
          (Outline.expressionStatement
            (Outline.call "getName"
              (some (Outline.call "getClass" (some (Outline.referenceExpression "o"))))))).withChild
          (Outline.expressionStatement
            (Outline.call "getTime"
              (some ((Outline.ofKind .newExpression).named "java.util.Date"))))).withChild
          (Outline.expressionStatement
            (Outline.call "x"
              (some (Outline.call "get2" (some (Outline.referenceExpression "o"))))))

/-- The fix of a reported chain of the file introduces a variable of some name. -/
theorem chainsOfNames_named {anchor : NodeId} {name : String}
    (offers
      : (anchor, some Fix.introduceVariable)
        ∈ (reportedChains chainsOfNames).map fun diagnostic => (diagnostic.anchor, diagnostic.fix))
    (works
      : ((Fix.introduceVariable.applyAt anchor).apply (.ofDocument chainsOfNames)).1 = .ok ())
    (isVariable
      : ((Fix.introduceVariable.applyAt anchor).apply (.ofDocument chainsOfNames)).2.kind? 16
        = some .localVariable)
    (named
      : ((Fix.introduceVariable.applyAt anchor).apply (.ofDocument chainsOfNames)).2.name? 16
        = some name)
    : ∃ diagnostic ∈ reportedChains chainsOfNames,
        diagnostic.anchor = anchor
        ∧ ∃ after : Tree,
            diagnostic.applyFix.apply (.ofDocument chainsOfNames) = (.ok (), after)
            ∧ after.kind? 16 = some .localVariable
            ∧ after.name? 16 = some name := by
  obtain ⟨diagnostic, reported, isAnchor, applied⟩ := reportedChains_applied offers works
  exact ⟨diagnostic, reported, isAnchor, _, applied, isVariable, named⟩

/-- The names of the receivers are legal, and the variables get the names `class`, `java.util.Date`
and `2`.
-/
theorem chainsOfNames_illegal
    : (IsIdentifier "getClass" ∧ IsQualifiedName "java.util.Date" ∧ IsIdentifier "get2")
      ∧ ∀ anchor name, (anchor, name) ∈ [(5, "class"), (9, "java.util.Date"), (12, "2")] →
          ¬IsIdentifier name
          ∧ ∃ diagnostic ∈ reportedChains chainsOfNames,
              diagnostic.anchor = anchor
              ∧ ∃ after : Tree,
                  diagnostic.applyFix.apply (.ofDocument chainsOfNames) = (.ok (), after)
                  ∧ after.kind? 16 = some .localVariable
                  ∧ after.name? 16 = some name := by
  refine ⟨by decide +kernel, fun anchor name among => ?_⟩
  simp only [List.mem_cons, Prod.mk.injEq, List.not_mem_nil, or_false] at among
  rcases among with ⟨rfl, rfl⟩ | ⟨rfl, rfl⟩ | ⟨rfl, rfl⟩ <;>
    exact ⟨by decide +kernel, chainsOfNames_named (by decide +kernel) (by decide +kernel)
      (by decide +kernel) (by decide +kernel)⟩

/-- The name `class` is reserved, so it is none for a variable. -/
theorem chainsOfNames_reserved
    : ∃ diagnostic ∈ reportedChains chainsOfNames,
        ∃ after receiver,
          diagnostic.applyFix.apply (.ofDocument chainsOfNames) = (.ok (), after)
          ∧ (Tree.ofDocument chainsOfNames).subtree? 6 = some receiver
          ∧ Fix.variableName receiver.stripParentheses ∈ reservedWords
          ∧ ¬IsIdentifier (Fix.variableName receiver.stripParentheses) := by
  obtain ⟨diagnostic, reported, isAnchor, applied⟩ :=
    @reportedChains_applied chainsOfNames 5 (by decide +kernel) (by decide +kernel)
  obtain ⟨receiver, _, _, _, receiverAt, shown, _, _, names⟩ :=
    Rule.introducesLegal_iff (.loaded chainsOfNames) reported applied
  have number : (Tree.ofDocument chainsOfNames).childAt? 5 .qualifier = some 6 := by
    decide +kernel
  rw [isAnchor, number, Option.some.injEq] at receiverAt
  rw [← receiverAt] at shown
  have told : ((Tree.ofDocument chainsOfNames).subtree? 6).all fun receiver =>
      receiver.stripParentheses.kind = .methodCall
      ∧ receiver.stripParentheses.name? = some "getClass"
      ∧ Fix.variableName receiver.stripParentheses ∈ reservedWords := by decide +kernel
  rw [shown, Option.all_some, decide_eq_true_eq] at told
  obtain ⟨isCall, named, reserved⟩ := told
  exact ⟨diagnostic, reported, _, receiver, applied, shown, reserved, fun legal =>
    (((names "getClass" named).1 isCall (by decide +kernel)).mp legal).1 reserved⟩

end TreeLint
