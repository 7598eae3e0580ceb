import TreeLint.Proofs.Fix.Labels
import TreeLint.Proofs.Rule.Reloading
import TreeLint.Proofs.Suite.Passes

/-! Suites on trees that are loaded again. Main result: where labels are distinct, whatever fixes were
applied, a run over what is loaded from the document of a tree reports what a run over the tree
reports, under the numbers in pre-order, without the reports that rest on a declaration that is left
over. So the two runs agree exactly if no report does.
-/

namespace TreeLint

namespace Diagnostic

/-- The names of the rules that ask what a node refers to. -/
def referenceRules : List String :=
  (Rule.all.filter (·.asksReference)).map (·.profile.shortName)

/-- The diagnostic rests on a declaration that is left over: its rule asks what the node refers to,
and the node refers there.
-/
def restsOnLeftOver (tree : Tree) (diagnostic : Diagnostic) : Bool :=
  referenceRules.contains diagnostic.rule && tree.leadsToLeftOver diagnostic.anchor

end Diagnostic

namespace Rule

/-- The name of a rule says whether it asks what a node refers to. -/
theorem contains_referenceRules (rule : Rule)
    : Diagnostic.referenceRules.contains rule.profile.shortName = rule.asksReference := by
  cases rule <;> rfl

/-- What a rule reports goes by its name. -/
theorem rule_of_inspectTree {rule : Rule} {tree : Tree} (linked : tree.Linked)
    {options : PassOptions} {flag : Option CancelFlag} (idle : ∀ held ∈ flag, held = { })
    {diagnostic : Diagnostic}
    (reported : diagnostic ∈ (Inspection.inspectTree rule tree options flag).reported)
    : diagnostic.rule = rule.profile.shortName := by
  obtain ⟨scope, _, anchor, _, rfl⟩ := (rule.mem_inspectTree_iff linked idle).mp reported
  rfl

end Rule

namespace Suite

/-- A run over the attached part of a tree under other numbers reports what a run over the tree
reports, without what rests on a declaration that is left over.
-/
theorem analyze_renumber {tree other : Tree} {number : NodeId → NodeId}
    (same : tree.RenumberedAs other number) (suite : Suite Rule) {session : Session}
    (idle : session.flag = { }) (clock : Nat → Duration)
    : (suite.analyze other session clock).1.diagnostics
      = ((suite.analyze tree session clock).1.diagnostics.filter
          (!·.restsOnLeftOver tree)).map (Diagnostic.renumber number) := by
  have calm : ∀ held ∈ some ({ } : CancelFlag), held = { } :=
    fun held among => (Option.some.inj among).symm
  rw [analyze_rules same.otherCoherent.toLinked idle, analyze_rules same.coherent.toLinked idle]
  simp only
  rw [List.filter_flatMap, List.map_flatMap]
  refine List.flatMap_congr fun entry _ => ?_
  rw [Rule.inspectTree_renumber same _ _ calm]
  refine congrArg _ (List.filter_congr fun diagnostic reported => ?_)
  rw [Diagnostic.restsOnLeftOver, Rule.restsOnLeftOver,
    Rule.rule_of_inspectTree same.coherent.toLinked calm reported, Rule.contains_referenceRules]

/-- Take a tree whose labels are distinct, whatever fixes were applied to it one after the other. What
a run reports about the tree that is loaded from the document is what a run reports about the tree in
memory, with the places in pre-order for numbers, but for the reports that rest on a declaration that
a fix left over. The two runs report the same if and only if there is none of these.
-/
theorem analyze_reloaded (suite : Suite Rule) {tree after : Tree} (coherent : tree.Coherent)
    (distinct : tree.LabelsDistinct) (fixed : tree.FixedTo after) {session : Session}
    (idle : session.flag = { }) (clock : Nat → Duration)
    : let here := (suite.analyze after session clock).1.diagnostics
      let there :=
        (suite.analyze (Tree.ofDocument after.toDocument) session clock).1.diagnostics
      there = (here.filter (!·.restsOnLeftOver after)).map (Diagnostic.renumber after.position)
        ∧ (there = here.map (Diagnostic.renumber after.position)
          ↔ ∀ diagnostic ∈ here, diagnostic.restsOnLeftOver after = false) := by
  intro here there
  have same := (fixed.coherent coherent).renumberedAs_reloaded
    (distinct.of_same (fixed.sameLabels coherent))
  have kept := analyze_renumber same suite idle clock
  refine ⟨kept, fun agree => ?_, fun none => ?_⟩
  · have long := congrArg List.length (kept.symm.trans agree)
    rw [List.length_map, List.length_map] at long
    have all := List.length_filter_eq_length_iff.mp long
    exact fun diagnostic reported => by simpa using all diagnostic reported
  · refine kept.trans (congrArg _ (List.filter_eq_self.mpr fun diagnostic reported => ?_))
    rw [none diagnostic reported]
    rfl

/-- A file with a class whose only method holds a lock. The method masks what it asks of an object of
an anonymous class with nothing, and then uses the field of that class.
-/
def maskedField : Document where
  root :=
    let shared := (Outline.continuedField "shared" "int").withLabel "shared"
    let created := (Outline.ofKind .newExpression).withChild
      ((Outline.anonymousClass "Base").withChild shared)
    let masked := (Outline.binary .and ((Outline.call "get" (some created)).withType "int")
      (((Outline.literal "0").withType "int").withConstant 0)).withType "int"
    Outline.file.withChild <| (Outline.namedClass "A").withChild <|
      ((Outline.method "m").withModifier .synchronized).withChild <| Outline.codeBlock.append
        [Outline.expressionStatement masked,
          Outline.expressionStatement
            ((Outline.referenceExpression "shared").resolvingTo (.labelled "shared"))]

/-- The rule about fields that are used under a lock, alone. -/
def lockSuite : Suite Rule where
  entries :=
    [{ timed := { inspection := .publicFieldAccessedInSynchronizedContext }, enabled := true }]
  interactive := false

/-- The mask is replaced by what is left of it, and the field is cut off. -/
theorem maskedField_fixed
    : (Tree.ofDocument maskedField).FixedTo ((Tree.ofDocument maskedField).fragment 5 "0") := by
  have succeeded : (Fix.simplify.applyAt 5).apply (Tree.ofDocument maskedField)
      = (.ok (), (Tree.ofDocument maskedField).fragment 5 "0") :=
    Fix.replaceAt_ok rfl (by decide +kernel)
  exact .fixed .refl succeeded

/-- Once the mask is simplified, the use of the field is reported in memory, but not about the tree
that is loaded from the document: that has no such field any more.
-/
theorem maskedField_reportedInMemory
    : let tree := Tree.ofDocument maskedField
      tree.LabelsDistinct
      ∧ ∃ after,
          tree.FixedTo after
          ∧ ∀ number,
              (lockSuite.analyze (Tree.ofDocument after.toDocument) { }).1.diagnostics
                ≠ (lockSuite.analyze after { }).1.diagnostics.map (Diagnostic.renumber number) := by
  intro tree
  refine ⟨by decide +kernel, _, maskedField_fixed, fun number same => ?_⟩
  have long := congrArg List.length same
  rw [List.length_map] at long
  revert long
  decide +kernel

/-- Witness: the one report in memory rests on the field that is left over, and no other is made of
what is loaded.
-/
theorem maskedField_reloaded
    : let tree := Tree.ofDocument maskedField
      tree.Coherent
      ∧ tree.LabelsDistinct
      ∧ ∃ after,
          tree.FixedTo after
          ∧ (lockSuite.analyze after { }).1.diagnostics.map (·.restsOnLeftOver after) = [true]
          ∧ (lockSuite.analyze (Tree.ofDocument after.toDocument) { }).1.diagnostics = [] := by
  intro tree
  have coherent : tree.Coherent := Tree.ofDocument_coherent maskedField
  have distinct : tree.LabelsDistinct := by decide +kernel
  refine ⟨coherent, distinct, _, maskedField_fixed, by decide +kernel, ?_⟩
  have idle : ({ } : Session).flag = { } := rfl
  rw [(analyze_reloaded lockSuite coherent distinct maskedField_fixed idle fun _ => .zero).1]
  decide +kernel

end Suite

end TreeLint
