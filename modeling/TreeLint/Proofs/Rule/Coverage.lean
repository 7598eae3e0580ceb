import TreeLint.Outline.Builder
import TreeLint.Proofs.Rule.Problems
import TreeLint.Proofs.Tree.Code
import TreeLint.Proofs.Tree.Numbering

/-! Rules about code run on the members of classes and stay out of the classes inside them, so each
looks at the code of every member. Main result: where no member lies in the code of another one,
such a rule reports each of its problems exactly once.
-/

namespace TreeLint

open Relation

-----------------------------------------------------------------------------------------
-- The anchors of a rule about code
-----------------------------------------------------------------------------------------

/-- A walk of a rule about code reports what the rule reports at each node of the code, by induction
on the subtree.
-/
theorem Rule.found_code {rule : Rule} (code : rule.LooksAtCode) (context : PassContext)
    (node : Subtree) (around : Surroundings)
    : rule.checker.found context node around
      = node.codeNodes.flatMap (rule.reportsAt context.tree) := by
  induction node using Subtree.induction generalizing around with
  | step node ih =>
      rw [Checker.found_eq, stepAt_code code, Subtree.codeNodes_eq]
      split
      · rfl
      · simp only [Step.walk, Option.elim_some]
        rw [List.flatMap_append, List.flatMap_singleton, List.flatMap_assoc,
          List.flatMap_congr fun child member => ih child member around]

/-- A rule about code reports what it reports at each node of the code of the members. -/
theorem Rule.anchors_code {rule : Rule} (code : rule.LooksAtCode) (tree : Tree)
    : rule.anchors tree = tree.memberCode.flatMap (rule.reportsAt tree) := by
  have scopes : rule.profile.scopes = [.methodScope, .fieldScope] := by cases code <;> rfl
  have each (scope : Scope) (_ : scope ∈ Scope.collect tree rule.profile.scopes) (root : Subtree)
      (_ : tree.subtree? scope.root = some root)
      : rule.checker.found { tree, scope } root { }
        = root.codeNodes.flatMap (rule.reportsAt tree) :=
    found_code code _ root _
  rw [anchors_eq each, scopes, Tree.collect_members, Tree.memberCode, List.flatMap_assoc]
  refine List.flatMap_congr fun id _ => ?_
  cases tree.subtree? id <;> rfl

/-- The node has a problem of the rule, and it is part of the tree and of a member of a class. -/
def Tree.HasProblem (tree : Tree) (rule : Rule) (id : NodeId) : Prop :=
  id ∈ tree.preorder
  ∧ tree.InMember id
  ∧ ∃ node, tree.subtree? id = some node ∧ rule.Flags tree node

/-- The nodes reported by a rule about code are those with a problem, whether members are apart or
not.
-/
theorem Rule.mem_anchors_code {rule : Rule} (code : rule.LooksAtCode) {tree : Tree}
    (coherent : tree.Coherent) {id : NodeId}
    : id ∈ (rule.anchors tree).map Subtree.id ↔ tree.HasProblem rule id := by
  rw [anchors_code code, List.mem_map]
  constructor
  · rintro ⟨anchor, member, rfl⟩
    obtain ⟨node, inside, reported⟩ := List.mem_flatMap.mp member
    obtain ⟨shown, attached, outside, inMember⟩ := coherent.mem_memberCode_iff.mp inside
    obtain ⟨flagged, reporter, anchorShown⟩ :=
      (mem_reportsAt_iff code coherent.toLinked shown).mp reported
    rw [Tree.reporter?] at reporter
    split at reporter
    · refine ⟨coherent.mem_preorder_iff.mpr ((coherent.mem_preorder_iff.mp attached).tail reporter),
        ?_, anchor, anchorShown, flagged⟩
      obtain ⟨top, isMember, way⟩ := inMember
      exact ⟨top, isMember, way.tail ⟨reporter, (Tree.isClassAt_of_shown shown).trans outside⟩⟩
    · rw [← Option.some.inj reporter] at attached inMember
      exact ⟨attached, inMember, anchor, anchorShown, flagged⟩
  · rintro ⟨attached, inMember, anchor, shown, flagged⟩
    obtain rfl := Tree.subtree?_id shown
    refine ⟨anchor, List.mem_flatMap.mpr ?_, rfl⟩
    by_cases isVariable : anchor.kind = .localVariable
    · -- A variable is no member, so the way to it from one comes through its declaration.
      obtain ⟨top, isMember, way⟩ := inMember
      rcases ReflTransGen.cases_tail way with rfl | ⟨parent, above, last⟩
      · rw [Tree.isMemberAt, Tree.kind?_of_shown shown, isVariable] at isMember
        cases isMember
      · have parentAttached := coherent.attached_of_below attached (.single last.1)
        obtain ⟨node, nodeShown⟩ :=
          coherent.subtree?_exists (coherent.lt_size_of_mem_preorder parentAttached)
        obtain rfl := Tree.subtree?_id nodeShown
        refine ⟨node, coherent.mem_memberCode_iff.mpr ⟨nodeShown, parentAttached,
          (Tree.isClassAt_of_shown nodeShown).symm.trans last.2, top, isMember, above⟩, ?_⟩
        exact (mem_reportsAt_iff code coherent.toLinked nodeShown).mpr
          ⟨flagged, (if_pos isVariable).trans last.1, shown⟩
    · refine ⟨anchor, coherent.mem_memberCode_iff.mpr
        ⟨shown, attached, isClass_of_flags code shown flagged, inMember⟩, ?_⟩
      exact (mem_reportsAt_iff code coherent.toLinked shown).mpr
        ⟨flagged, if_neg isVariable, shown⟩

/-- A rule about code reports later variables or tests the node itself, by cases on the rule and on
the kind of the node.
-/
theorem Rule.reports?_cases {rule : Rule} (code : rule.LooksAtCode) {tree : Tree}
    {kind : NodeKind} {reports : Subtree → List Subtree}
    (looks : rule.reports? tree kind = some reports)
    : reports = laterVariables tree ∨ ∃ test, reports = Subtree.selfIf test := by
  cases code <;> cases kind <;> cases looks <;> first | exact Or.inl rfl | exact Or.inr ⟨_, rfl⟩

/-- What is reported at one node is reported once. -/
theorem Rule.reportsAt_nodup {rule : Rule} (code : rule.LooksAtCode) {tree : Tree}
    (linked : tree.Linked) {node : Subtree} (shown : tree.subtree? node.id = some node)
    : ((rule.reportsAt tree node).map Subtree.id).Nodup := by
  have self (test : Subtree → Bool) : ((node.selfIf test).map Subtree.id).Nodup := by
    rw [Subtree.selfIf]
    split <;> simp
  have later : ((laterVariables tree node).map Subtree.id).Nodup := by
    rw [laterVariables]
    split
    · exact List.nodup_nil
    · have sub : ((node.childrenOfKind .localVariable).drop 1).Sublist node.children :=
        (List.drop_sublist 1 _).trans List.filter_sublist
      refine (sub.map Subtree.id).nodup ?_
      rw [Tree.subtree?_children shown]
      exact linked.unique node.id
  rw [reportsAt]
  cases looks : rule.reports? tree node.kind with
  | none => exact List.nodup_nil
  | some reports =>
      rcases reports?_cases code looks with rfl | ⟨test, rfl⟩
      · exact later
      · exact self test

/-- Where members are apart, a rule about code reports no node twice: a node is reported at one
other node only.
-/
theorem Rule.anchors_nodup {rule : Rule} (code : rule.LooksAtCode) {tree : Tree}
    (coherent : tree.Coherent) (apart : tree.MembersApart)
    : ((rule.anchors tree).map Subtree.id).Nodup := by
  have shown {node : Subtree} (inside : node ∈ tree.memberCode)
      : tree.subtree? node.id = some node := (coherent.mem_memberCode_iff.mp inside).1
  rw [anchors_code code, List.map_flatMap]
  refine List.nodup_flatMap.mpr ⟨?_, ?_⟩
  · exact fun node inside => reportsAt_nodup code coherent.toLinked (shown inside)
  · refine (List.pairwise_map.mp (coherent.memberCode_nodup apart)).imp_of_mem ?_
    intro first second firstInside secondInside distinct id inFirst inSecond
    obtain ⟨anchor, reported, rfl⟩ := List.mem_map.mp inFirst
    obtain ⟨other, otherReported, same⟩ := List.mem_map.mp inSecond
    obtain ⟨_, reporter, anchorShown⟩ :=
      (mem_reportsAt_iff code coherent.toLinked (shown firstInside)).mp reported
    obtain ⟨_, otherReporter, otherShown⟩ :=
      (mem_reportsAt_iff code coherent.toLinked (shown secondInside)).mp otherReported
    rw [same, anchorShown] at otherShown
    cases otherShown
    exact distinct (Option.some.inj (reporter.symm.trans otherReporter))

-----------------------------------------------------------------------------------------
-- Each problem is reported exactly once
-----------------------------------------------------------------------------------------

/-- Where no member of a class lies in the code of another one, a run of a rule about code that
nobody stops reports each problem once, and nothing else, whatever the options say.
-/
theorem Rule.inspectTree_reportsOnce {rule : Rule} (code : rule.LooksAtCode) {tree : Tree}
    (coherent : tree.Coherent) (apart : tree.MembersApart) (options : PassOptions)
    {flag : Option CancelFlag} (idle : ∀ held ∈ flag, held = { }) (id : NodeId)
    : (tree.HasProblem rule id
        → (Inspection.inspectTree rule tree options flag).reported.countP (·.anchor = id) = 1)
      ∧ (¬tree.HasProblem rule id
        → (Inspection.inspectTree rule tree options flag).reported.countP (·.anchor = id) = 0) := by
  have counted : (Inspection.inspectTree rule tree options flag).reported.countP (·.anchor = id)
      = ((rule.anchors tree).map Subtree.id).count id := by
    rw [← rule.inspectTree_anchors coherent.toLinked options idle, List.count, List.countP_map]
    rfl
  rw [counted, ← mem_anchors_code code coherent]
  exact ⟨List.count_eq_one_of_mem (anchors_nodup code coherent apart), List.count_eq_zero.mpr⟩

/-- A file with a class whose only member declares two variables, with an anonymous class in the
first of them whose field has no written type.
-/
def nestedDeclarations : Document where
  root :=
    Outline.file.withChild <| (Outline.namedClass "Outer").withChild <|
      (Outline.method "run").withChild <| Outline.codeBlock.withChild <|
        (Outline.ofKind .declarationStatement).append
          [(Outline.localVariable "first" "Base").withChild <|
            (Outline.ofKind .newExpression).withChild <|
              (Outline.anonymousClass "Base").withChild (Outline.continuedField "shared" "int"),
            Outline.localVariable "second" "Base"]

/-- The field inside the first variable and the second variable are reported once each. -/
theorem nestedDeclarations_reported
    : (Tree.ofDocument nestedDeclarations).MembersApart
      ∧ ∀ id ∈ [9, 10],
          (Inspection.inspectTree Rule.multipleDeclaration (Tree.ofDocument nestedDeclarations)
            { } (some { })).reported.countP (·.anchor = id) = 1 := by
  have apart : (Tree.ofDocument nestedDeclarations).MembersApart := by decide
  have idle : ∀ held ∈ some ({ } : CancelFlag), held = { } :=
    fun held same => (Option.some.inj same).symm
  have once := Rule.inspectTree_reportsOnce .declarations
    (Tree.ofDocument_coherent nestedDeclarations) apart { } idle
  have way : ReflTransGen (Tree.ofDocument nestedDeclarations).CodeParent 2 10 :=
    .head (b := 3) ⟨rfl, rfl⟩ (.head (b := 4) ⟨rfl, rfl⟩ (.single ⟨rfl, rfl⟩))
  refine ⟨apart, fun id among => (once id).1 ?_⟩
  rcases List.mem_pair.mp among with rfl | rfl
  · exact ⟨by decide, ⟨9, rfl, .refl⟩, _, rfl, Or.inr ⟨rfl, by decide⟩⟩
  · refine ⟨by decide, ⟨2, rfl, way⟩, _, rfl, Or.inl ⟨4, ⟨rfl, rfl, [5], [], rfl, ?_⟩, ?_⟩⟩
    · exact ⟨5, List.mem_singleton.mpr rfl, rfl⟩
    · rintro ⟨⟨content, known, init⟩, _⟩
      cases known
      exact absurd init (by decide)

end TreeLint
