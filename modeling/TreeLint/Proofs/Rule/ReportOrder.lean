import TreeLint.Proofs.Rule.ClassProblems
import TreeLint.Proofs.Tree.Attachment

/-! The order in which a rule reports nodes that are above one another. A pass reports a node behind
everything that it reports below the node, and what a rule finds below the root of a later pass, it
finds there in an earlier one as well or not at all.
-/

namespace TreeLint

open Relation

-----------------------------------------------------------------------------------------
-- The order of a walk
-----------------------------------------------------------------------------------------

namespace Checker

/-- At every node, the rule reports either the node itself or some of its children. -/
def ReportsNear (checker : Checker) (context : PassContext) : Prop :=
  ∀ around node,
    (∀ anchor ∈ (checker.stepAt context around node).reports, anchor = node)
    ∨ ∀ anchor ∈ (checker.stepAt context around node).reports, anchor ∈ node.children

section Walk

variable {checker : Checker} {context : PassContext}

/-- A walk finds what it finds from the children, if it goes there, and what is reported at the
node itself.
-/
theorem mem_found_iff {node anchor : Subtree} {around : Surroundings}
    : anchor ∈ checker.found context node around
      ↔ (∃ below, (checker.stepAt context around node).below = some below
          ∧ ∃ child ∈ node.children, anchor ∈ checker.found context child below)
        ∨ anchor ∈ (checker.stepAt context around node).reports := by
  rw [found_eq, List.mem_append]
  cases (checker.stepAt context around node).below <;> simp

/-- A walk that reports near by finds nodes of the subtree, by induction on the subtree. -/
theorem ReportsNear.mem_nodes (near : checker.ReportsNear context) {node anchor : Subtree}
    {around : Surroundings} (member : anchor ∈ checker.found context node around)
    : anchor ∈ node.nodes := by
  induction node using Subtree.induction generalizing around with
  | step node ih =>
      rw [Subtree.mem_nodes_iff]
      rcases mem_found_iff.mp member with ⟨below, _, child, among, inner⟩ | reported
      · exact .inr ⟨child, among, ih child among inner⟩
      · rcases near around node with self | children
        · exact .inl (self anchor reported)
        · exact .inr ⟨anchor, children anchor reported, anchor.self_mem_nodes⟩

/-- Nothing that hangs below a node is above the node or above a child of it. -/
private theorem not_above_near (linked : context.tree.Linked) {node upper lower : NodeId}
    (below : context.tree.Above node upper)
    (near : lower = node ∨ context.tree.parent? lower = some node)
    : ¬context.tree.Above upper lower := by
  intro above
  rcases near with rfl | up
  · exact linked.acyclic upper (above.trans below)
  · obtain ⟨parent, link, reach⟩ := Tree.above_iff.mp above
    obtain rfl : node = parent := Option.some.inj (up.symm.trans link)
    rcases reach with rfl | higher
    · exact linked.acyclic upper below
    · exact linked.acyclic upper (higher.trans below)

/-- A walk that reports near by finds a node behind everything that it finds below the node, by
induction on the subtree.
-/
theorem ReportsNear.postOrder (near : checker.ReportsNear context)
    (linked : context.tree.Linked) {node : Subtree}
    (shown : context.tree.subtree? node.id = some node) (around : Surroundings)
    : (checker.found context node around).Pairwise fun earlier later =>
        ¬context.tree.Above earlier.id later.id := by
  induction node using Subtree.induction generalizing around with
  | step node ih =>
      have upward := fun child (member : child ∈ node.children) =>
        linked.parent?_of_mem_children shown member
      have inside := fun child (member : child ∈ node.children) =>
        (Tree.subtree?_of_mem_children shown member).1
      have under {child anchor : Subtree} {below : Surroundings} (among : child ∈ node.children)
          (member : anchor ∈ checker.found context child below)
          : ReflTransGen context.tree.IsParent child.id anchor.id :=
        linked.below_of_mem_nodes (inside child among) (near.mem_nodes member)
      have strictly {child anchor : Subtree} {below : Surroundings}
          (among : child ∈ node.children) (member : anchor ∈ checker.found context child below)
          : context.tree.Above node.id anchor.id :=
        TransGen.head' (upward child among) (under among member)
      rw [found_eq]
      refine List.pairwise_append.mpr ⟨?_, ?_, ?_⟩
      · cases (checker.stepAt context around node).below with
        | none => exact .nil
        | some below =>
            have numbers : (node.children.map Subtree.id).Nodup := by
              rw [Tree.subtree?_children shown]
              exact linked.unique node.id
            refine List.pairwise_flatMap.mpr
              ⟨fun child among => ih child among (inside child among) below, ?_⟩
            refine (List.pairwise_map.mp numbers).imp_of_mem ?_
            intro first second firstAmong secondAmong distinct upper inFirst lower inSecond above
            exact linked.siblings_disjoint (upward first firstAmong) (upward second secondAmong)
              distinct ((under firstAmong inFirst).trans above.to_reflTransGen)
              (under secondAmong inSecond)
      · refine List.pairwise_of_forall_mem_list fun upper isUpper lower isLower => ?_
        rcases near around node with self | children
        · rw [self upper isUpper, self lower isLower]
          exact linked.acyclic node.id
        · exact not_above_near linked (.single (upward upper (children upper isUpper)))
            (.inr (upward lower (children lower isLower)))
      · intro upper found lower reported
        obtain ⟨below, child, among, member⟩ : ∃ below, ∃ child ∈ node.children,
            upper ∈ checker.found context child below := by
          cases goes : (checker.stepAt context around node).below with
          | none => simp [goes] at found
          | some below =>
              rw [goes, Option.elim_some] at found
              exact ⟨below, List.mem_flatMap.mp found⟩
        refine not_above_near linked (strictly among member) ?_
        exact (near around node).imp (fun self => congrArg Subtree.id (self lower reported))
          fun children => upward lower (children lower reported)

/-- A node found below another one is found on the walk from there, and whatever that walk finds
belongs to the whole walk, by induction on the subtree.
-/
theorem ReportsNear.through (near : checker.ReportsNear context)
    (linked : context.tree.Linked) {node middle anchor : Subtree}
    (shown : context.tree.subtree? node.id = some node) (inside : middle ∈ node.nodes)
    (above : context.tree.Above middle.id anchor.id) {around : Surroundings}
    (member : anchor ∈ checker.found context node around)
    : ∃ inner, anchor ∈ checker.found context middle inner
      ∧ ∀ other ∈ checker.found context middle inner,
          other ∈ checker.found context node around := by
  induction node using Subtree.induction generalizing around with
  | step node ih =>
      have upward := fun child (member : child ∈ node.children) =>
        linked.parent?_of_mem_children shown member
      rcases Subtree.mem_nodes_iff.mp inside with rfl | ⟨child, among, lower⟩
      · exact ⟨around, member, fun _ found => found⟩
      · have childShown := (Tree.subtree?_of_mem_children shown among).1
        have reach := linked.below_of_mem_nodes childShown lower
        rcases mem_found_iff.mp member with ⟨below, goes, other, otherAmong, inner⟩ | reported
        · have otherReach := linked.below_of_mem_nodes
            (Tree.subtree?_of_mem_children shown otherAmong).1 (near.mem_nodes inner)
          obtain rfl : child = other := by
            by_contra distinct
            refine linked.siblings_disjoint (upward child among) (upward other otherAmong) ?_
              (reach.trans above.to_reflTransGen) otherReach
            intro same
            rw [same, (Tree.subtree?_of_mem_children shown otherAmong).1] at childShown
            exact distinct (Option.some.inj childShown).symm
          obtain ⟨surroundings, found, rest⟩ := ih child among childShown lower inner
          exact ⟨surroundings, found, fun other found =>
            mem_found_iff.mpr (.inl ⟨below, goes, child, among, rest other found⟩)⟩
        · refine absurd above (not_above_near linked (TransGen.head' (upward child among) reach) ?_)
          exact (near around node).imp (fun self => congrArg Subtree.id (self anchor reported))
            fun children => upward anchor (children anchor reported)

end Walk

end Checker

-----------------------------------------------------------------------------------------
-- The order of the passes of a rule
-----------------------------------------------------------------------------------------

namespace Rule

/-- A rule that has a fix reports near by: at the node or right below it. -/
theorem reportsNear {rule : Rule} (fixes : rule.profile.fix.isSome) (context : PassContext)
    : rule.checker.ReportsNear context := by
  have self (test : Subtree → Bool) (node anchor : Subtree) (member : anchor ∈ node.selfIf test)
      : anchor = node := (Subtree.mem_selfIf_iff.mp member).1
  have ofCode (code : rule.LooksAtCode) : rule.checker.ReportsNear context := by
    intro around node
    rw [stepAt_code code]
    split
    · exact .inl fun anchor member => absurd member List.not_mem_nil
    · cases looks : rule.reports? context.tree node.kind with
      | none => simp [Step.walk, reportsAt, looks]
      | some reports =>
          have same : rule.reportsAt context.tree node = reports node := by
            rw [reportsAt, looks, Option.elim_some]
          simp only [Step.walk, same]
          rcases reports?_cases code looks with rfl | ⟨test, rfl⟩
          · refine .inr fun anchor member => ?_
            rw [laterVariables] at member
            split at member
            · cases member
            · exact List.mem_of_mem_filter (List.mem_of_mem_drop member)
          · exact .inl (self test node)
  cases rule with
  | pointlessBitwiseExpression => exact ofCode .bitwise
  | chainedMethodCall ignoreFields => exact ofCode (.chains ignoreFields)
  | multipleDeclaration => exact ofCode .declarations
  | literalAsArgToStringEquals => exact ofCode .comparisons
  | finalMethodInFinalClass =>
      intro around node
      rw [Checker.stepAt, reactionFor?_finalMethod]
      split
      · exact .inl (self _ node)
      · exact .inl fun anchor member => absurd member List.not_mem_nil
  | anonymousClassMethodCount limit =>
      intro around node
      refine .inr fun anchor member => ?_
      rw [Checker.stepAt, reactionFor?_methodCount] at member
      split at member
      · cases member
      · have among : anchor ∈ node.crowdedBase limit := member
        rw [Subtree.crowdedBase] at among
        split at among
        · exact List.mem_of_find?_eq_some (Option.mem_toList.mp among)
        · cases among
      · cases member
  | typeParameterExtendsObject =>
      intro around node
      rw [Checker.stepAt, reactionFor?_typeParameter]
      split
      · refine .inl fun anchor member => ?_
        simp only [Option.map_some, Option.getD_some, Reaction.walkRoot] at member
        split at member <;> cases member
      · split
        · exact .inl (self (fun parameter => !parameter.objectBounds.isEmpty) node)
        · exact .inl fun anchor member => absurd member List.not_mem_nil
  | _ => cases fixes

/-- What a rule that has a fix finds on the way from the root of another scope is nothing, or what
its pass over that scope finds there.
-/
theorem found_elsewhere {rule : Rule} (fixes : rule.profile.fix.isSome) {tree : Tree}
    {scope : Scope} {node : Subtree} {kind : ScopeKind} (among : kind ∈ rule.profile.scopes)
    (isScope : ScopeKind.ofNodeKind? node.kind = some kind) (apart : node.id ≠ scope.root)
    (around : Surroundings)
    : rule.checker.found { tree, scope } node around = []
      ∨ rule.checker.found { tree, scope } node around
        = rule.checker.found { tree, scope := ⟨kind, node.id⟩ } node { } := by
  have ofCode (code : rule.LooksAtCode)
      : rule.checker.found { tree, scope } node around = []
        ∨ rule.checker.found { tree, scope } node around
          = rule.checker.found { tree, scope := ⟨kind, node.id⟩ } node { } := by
    rw [found_code code, found_code code]
    exact .inr rfl
  cases rule with
  | pointlessBitwiseExpression => exact ofCode .bitwise
  | chainedMethodCall ignoreFields => exact ofCode (.chains ignoreFields)
  | multipleDeclaration => exact ofCode .declarations
  | literalAsArgToStringEquals => exact ofCode .comparisons
  | finalMethodInFinalClass =>
      have isMethod : node.kind = .method := by
        cases List.mem_singleton.mp among
        revert isScope
        cases node.kind <;> decide
      rw [found_finalMethod _ isMethod, found_finalMethod _ isMethod]
      exact .inr rfl
  | anonymousClassMethodCount limit =>
      rw [found_methodCount _ among isScope, found_methodCount _ among isScope]
      exact .inr rfl
  | typeParameterExtendsObject =>
      have isClass : node.kind.isClass := by
        cases List.mem_singleton.mp among
        revert isScope
        cases node.kind <;> decide
      rw [Checker.found_eq, Checker.stepAt, reactionFor?_typeParameter, if_pos isClass]
      exact .inl (by simp [Reaction.walkRoot, apart, Step.skip])
  | _ => cases fixes

end Rule

/-- A later scope is not that of an earlier one, nor is its root above the earlier one's. -/
theorem Scope.collect_ordered {tree : Tree} (coherent : tree.Coherent) (kinds : List ScopeKind)
    : (Scope.collect tree kinds).Pairwise fun earlier later =>
        earlier.root ≠ later.root ∧ ¬tree.Above later.root earlier.root := by
  have root {id : NodeId} {scope : Scope} (made : Scope.ofNode? tree id = some scope)
      : scope.root = id := by
    obtain ⟨content, _, made⟩ := Option.bind_eq_some_iff.mp made
    obtain ⟨kind, _, made⟩ := Option.bind_eq_some_iff.mp made
    exact congrArg Scope.root (Option.some.inj made).symm
  refine (List.Pairwise.filterMap _ ?_
    (coherent.preorder_nodup.and coherent.preorder_ordered)).filter _
  intro first second ordered earlier isEarlier later isLater
  rw [root isEarlier, root isLater]
  exact ordered

namespace Rule

/-- No pass of the rule reports a node above another one that it reports. -/
def PassesApart (rule : Rule) (tree : Tree) : Prop :=
  ∀ scope ∈ Scope.collect tree rule.profile.scopes,
    ∀ upper ∈ rule.anchorsIn tree scope, ∀ lower ∈ rule.anchorsIn tree scope,
      ¬tree.Above upper.id lower.id

/-- What a pass reports, it finds on the walk from the root of its scope. -/
theorem anchorsIn_shown {rule : Rule} {tree : Tree} {scope : Scope} {anchor : Subtree}
    (member : anchor ∈ rule.anchorsIn tree scope)
    : ∃ root,
        tree.subtree? root.id = some root
        ∧ scope.root = root.id
        ∧ rule.anchorsIn tree scope = rule.checker.found { tree, scope } root { } := by
  rw [anchorsIn] at member
  cases shown : tree.subtree? scope.root with
  | none => simp [shown] at member
  | some root =>
      have number := Tree.subtree?_id shown
      exact ⟨root, number.symm ▸ shown, number.symm, by rw [anchorsIn, shown, Option.elim_some]⟩

/-- A pass reports a node behind everything that it reports below the node. -/
theorem anchorsIn_postOrder {rule : Rule} (fixes : rule.profile.fix.isSome) {tree : Tree}
    (linked : tree.Linked) (scope : Scope)
    : (rule.anchorsIn tree scope).Pairwise fun earlier later =>
        ¬tree.Above earlier.id later.id := by
  cases found : rule.anchorsIn tree scope with
  | nil => exact .nil
  | cons anchor rest =>
      have member : anchor ∈ rule.anchorsIn tree scope := found ▸ List.mem_cons_self
      obtain ⟨root, shown, _, same⟩ := anchorsIn_shown member
      rw [← found, same]
      exact (reportsNear fixes { tree, scope }).postOrder linked shown { }

/-- Where a later pass reports a node above one that an earlier pass reports, the earlier pass
reports both of them.
-/
theorem anchorsIn_earlier {rule : Rule} (fixes : rule.profile.fix.isSome) {tree : Tree}
    (coherent : tree.Coherent) {first second : Scope}
    (listed : second ∈ Scope.collect tree rule.profile.scopes)
    (distinct : first.root ≠ second.root) (ordered : ¬tree.Above second.root first.root)
    {upper lower : Subtree} (isLower : lower ∈ rule.anchorsIn tree first)
    (isUpper : upper ∈ rule.anchorsIn tree second) (above : tree.Above upper.id lower.id)
    : upper ∈ rule.anchorsIn tree first := by
  obtain ⟨_, among, nodeKind, isKind, isScope⟩ := Scope.mem_collect_iff.mp listed
  obtain ⟨kind, id⟩ := second
  obtain ⟨top, topShown, topRoot, found⟩ := anchorsIn_shown isLower
  obtain ⟨root, rootShown, rfl, later⟩ := anchorsIn_shown isUpper
  have near := reportsNear fixes { tree, scope := first }
  have fromTop := coherent.below_of_mem_nodes topShown (near.mem_nodes (found ▸ isLower))
  have fromRoot : tree.Above root.id lower.id := TransGen.trans_right
    (coherent.below_of_mem_nodes rootShown
      ((reportsNear fixes _).mem_nodes (later ▸ isUpper))) above
  -- The roots are both above the lower node, so the later scope lies in the earlier one.
  have inside : root ∈ top.nodes := by
    rcases Tree.above_comparable fromTop fromRoot.to_reflTransGen with chain | chain
    · obtain ⟨inner, member, same⟩ := List.mem_map.mp ((coherent.mem_nodes_iff topShown).mpr chain)
      have innerShown := Tree.subtree?_of_mem_nodes topShown member
      rw [same, rootShown] at innerShown
      exact Option.some.inj innerShown ▸ member
    · rcases reflTransGen_iff_eq_or_transGen.mp chain with same | strictly
      · exact absurd (topRoot.trans same) distinct
      · exact absurd (topRoot ▸ strictly) ordered
  obtain ⟨around, member, rest⟩ :=
    near.through coherent.toLinked topShown inside fromRoot (found ▸ isLower)
  have rootKind : ScopeKind.ofNodeKind? root.kind = some kind := by
    rw [← isScope, Tree.kind_of_shown rootShown isKind]
  rw [found]
  rcases found_elsewhere fixes among rootKind distinct.symm around with none | same
  · rw [none] at member
    cases member
  · exact rest upper (same ▸ later ▸ isUpper)

/-- A rule reports nothing above what it reported before exactly if no pass of it does. -/
theorem anchors_ordered_iff {rule : Rule} (fixes : rule.profile.fix.isSome) {tree : Tree}
    (coherent : tree.Coherent)
    : ((rule.anchors tree).Pairwise fun earlier later => ¬tree.Above later.id earlier.id)
      ↔ rule.PassesApart tree := by
  rw [anchors, List.pairwise_flatMap]
  constructor
  · rintro ⟨within, _⟩ scope listed upper isUpper lower isLower
    have apart := (within scope listed).and (anchorsIn_postOrder fixes coherent.toLinked scope)
    have symmetric : Std.Symm fun first second : Subtree =>
        ¬tree.Above second.id first.id ∧ ¬tree.Above first.id second.id :=
      ⟨fun _ _ => And.symm⟩
    have same : ∀ anchor ∈ rule.anchorsIn tree scope,
        ¬tree.Above anchor.id anchor.id ∧ ¬tree.Above anchor.id anchor.id :=
      fun anchor _ => ⟨coherent.acyclic anchor.id, coherent.acyclic anchor.id⟩
    exact (List.Pairwise.forall_of_forall same apart isUpper isLower).2
  · intro apart
    refine ⟨fun scope listed => ?_, ?_⟩
    · exact List.pairwise_of_forall_mem_list fun lower isLower upper isUpper =>
        apart scope listed upper isUpper lower isLower
    · refine (Scope.collect_ordered coherent rule.profile.scopes).imp_of_mem ?_
      intro first second firstListed secondListed ordered lower isLower upper isUpper above
      have both := anchorsIn_earlier fixes coherent secondListed ordered.1 ordered.2 isLower isUpper
        above
      exact apart first firstListed upper both lower isLower above

end Rule

end TreeLint
