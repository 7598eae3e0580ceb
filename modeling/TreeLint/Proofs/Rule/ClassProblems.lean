import TreeLint.Proofs.Fix.Removals
import TreeLint.Proofs.Rule.Coverage

/-! The nodes reported by the rules about classes that have a fix: final methods of final classes,
type parameters with a bound that says nothing, and the bases of anonymous classes with many
methods. Each of them is a node of the tree with the problem that the rule is about.
-/

namespace TreeLint

open Relation

-----------------------------------------------------------------------------------------
-- Anchors
-----------------------------------------------------------------------------------------

/-- The anchors of a rule are what its walks find from the attached nodes that make its scopes. -/
theorem Rule.mem_anchors_iff {rule : Rule} {tree : Tree} {anchor : Subtree}
    : anchor ∈ rule.anchors tree
      ↔ ∃ root scope,
          scope ∈ rule.profile.scopes
          ∧ root.id ∈ tree.preorder
          ∧ tree.subtree? root.id = some root
          ∧ ScopeKind.ofNodeKind? root.kind = some scope
          ∧ anchor ∈ rule.checker.found { tree, scope := ⟨scope, root.id⟩ } root { } := by
  rw [anchors, List.mem_flatMap]
  constructor
  · rintro ⟨⟨kind, id⟩, listed, member⟩
    obtain ⟨attached, among, nodeKind, isKind, isScope⟩ := Scope.mem_collect_iff.mp listed
    rw [anchorsIn] at member
    cases shown : tree.subtree? id with
    | none =>
        rw [shown] at member
        cases member
    | some root =>
        rw [shown] at member
        obtain rfl := Tree.subtree?_id shown
        cases (Tree.kind?_of_shown shown).symm.trans isKind
        exact ⟨root, kind, among, attached, shown, isScope, member⟩
  · rintro ⟨root, scope, among, attached, shown, isScope, member⟩
    refine ⟨⟨scope, root.id⟩, Scope.mem_collect_iff.mpr
      ⟨attached, among, root.kind, Tree.kind?_of_shown shown, isScope⟩, ?_⟩
    rw [anchorsIn, shown]
    exact member

-----------------------------------------------------------------------------------------
-- Final methods of final classes
-----------------------------------------------------------------------------------------

/-- The node is a final method of a final class. -/
def Tree.RedundantFinal (tree : Tree) (id : NodeId) : Prop :=
  tree.kind? id = some .method
  ∧ tree.IsFinal id
  ∧ ∃ parent,
      tree.parent? id = some parent
      ∧ tree.kind? parent = some .namedClass
      ∧ tree.IsFinal parent

/-- The test whether a method is final although its class is. -/
def Tree.finalInFinal (tree : Tree) (method : Subtree) : Bool :=
  method.hasModifier .final
    && (tree.parentContent? method.id).any fun parent =>
      parent.kind == .namedClass && parent.hasModifier .final

theorem Rule.reactionFor?_finalMethod (context : PassContext) (kind : NodeKind)
    : Rule.finalMethodInFinalClass.checker.reactionFor? context kind
      = if kind = .method then
          some (.stop (Subtree.selfIf context.tree.finalInFinal))
        else
          none := by
  cases kind <;> rfl

theorem Tree.isFinal_of_shown {tree : Tree} {node : Subtree}
    (shown : tree.subtree? node.id = some node)
    : tree.IsFinal node.id ↔ node.hasModifier .final := by
  rw [IsFinal, content?_of_shown shown]
  simp only [Option.some.injEq, exists_eq_left']
  rfl

theorem Tree.finalInFinal_iff {tree : Tree} {method : Subtree}
    (shown : tree.subtree? method.id = some method) (isMethod : method.kind = .method)
    : tree.finalInFinal method ↔ tree.RedundantFinal method.id := by
  rw [finalInFinal, RedundantFinal, kind?_of_shown shown, isMethod, isFinal_of_shown shown,
    parentContent?, Bool.and_eq_true, Option.any_bind, Option.any_eq_true]
  constructor
  · rintro ⟨final, parent, up, there⟩
    obtain ⟨content, known, isBoth⟩ := (Option.any_eq_true _ _).mp there
    rw [Bool.and_eq_true, beq_iff_eq] at isBoth
    exact ⟨rfl, final, parent, up, kind?_eq_some_iff.mpr ⟨content, known, isBoth.1⟩, content, known,
      isBoth.2⟩
  · rintro ⟨_, final, parent, up, isClass, content, known, isFinal⟩
    refine ⟨final, parent, up, (Option.any_eq_true _ _).mpr ⟨content, known, ?_⟩⟩
    obtain ⟨same, sameKnown, isClass⟩ := kind?_eq_some_iff.mp isClass
    cases known.symm.trans sameKnown
    rw [isClass, isFinal]
    rfl

/-- The walk of a method looks at the method and at nothing below it. -/
theorem Rule.found_finalMethod (context : PassContext) {node : Subtree}
    (isMethod : node.kind = .method) (around : Surroundings)
    : Rule.finalMethodInFinalClass.checker.found context node around
      = node.selfIf context.tree.finalInFinal := by
  rw [Checker.found_eq, Checker.stepAt, reactionFor?_finalMethod, if_pos isMethod]
  rfl

/-- The final methods reported are the attached ones of final classes. -/
theorem Rule.mem_anchors_finalMethod {tree : Tree} (linked : tree.Linked) {id : NodeId}
    : id ∈ (Rule.finalMethodInFinalClass.anchors tree).map Subtree.id
      ↔ id ∈ tree.preorder ∧ tree.RedundantFinal id := by
  exact mem_anchors_tested rfl linked (fun _ _ _ isMethod => found_finalMethod _ isMethod _)
    (fun _ shown isMethod => tree.finalInFinal_iff shown isMethod) fun _ redundant => redundant.1

-----------------------------------------------------------------------------------------
-- Bases of anonymous classes
-----------------------------------------------------------------------------------------

/-- The methods right below a node that are no constructors. -/
def Tree.methodsOf (tree : Tree) (id : NodeId) : List NodeId :=
  (tree.childIds id).filter fun child =>
    (tree.content? child).any fun content =>
      content.kind == .method && !content.facts.isConstructor

/-- The node is the base of an anonymous class with more methods than the limit. -/
def Tree.CrowdedBase (tree : Tree) (limit : Threshold) (anonymous id : NodeId) : Prop :=
  tree.kind? anonymous = some .anonymousClass
  ∧ limit.isExceededBy (tree.methodsOf anonymous).length
  ∧ tree.childAt? anonymous .baseClass = some id

/-- What is reported about an anonymous class if it has more methods than the limit. -/
def Subtree.crowdedBase (limit : Threshold) (node : Subtree) : List Subtree :=
  if limit.isExceededBy node.ordinaryMethods.length then
    (node.childWithRole? .baseClass).toList
  else
    []

theorem Rule.reactionFor?_methodCount (limit : Threshold) (context : PassContext)
    (kind : NodeKind)
    : (Rule.anonymousClassMethodCount limit).checker.reactionFor? context kind
      = match kind with
        | .namedClass => some .skip
        | .anonymousClass => some (.stop (Subtree.crowdedBase limit))
        | _ => none := by
  cases kind <;> rfl

theorem Tree.ordinaryMethods_ids {tree : Tree} {node : Subtree}
    (shown : tree.subtree? node.id = some node)
    : node.ordinaryMethods.map Subtree.id = tree.methodsOf node.id := by
  rw [methodsOf, ← filter_children shown, Subtree.ordinaryMethods, Subtree.childrenOfKind,
    List.filter_filter]
  refine congrArg (List.map Subtree.id) (List.filter_congr fun child _ => ?_)
  exact Bool.and_comm _ _

/-- What is reported about an anonymous class is its base, if it has too many methods. -/
theorem Tree.mem_crowdedBase_iff {tree : Tree} {limit : Threshold} {node : Subtree} {id : NodeId}
    (shown : tree.subtree? node.id = some node) (isAnonymous : node.kind = .anonymousClass)
    : id ∈ (node.crowdedBase limit).map Subtree.id ↔ tree.CrowdedBase limit node.id id := by
  rw [CrowdedBase, kind?_of_shown shown, isAnonymous, ← ordinaryMethods_ids shown,
    List.length_map, ← childWithRole?_id shown, Subtree.crowdedBase]
  cases limit.isExceededBy node.ordinaryMethods.length <;>
    cases node.childWithRole? .baseClass <;> simp [eq_comm]

/-- The walk of a class reports the base of an anonymous class, and looks at nothing else. -/
theorem Rule.found_methodCount {limit : Threshold} (context : PassContext) {node : Subtree}
    {scope : ScopeKind} (among : scope ∈ (Rule.anonymousClassMethodCount limit).profile.scopes)
    (isScope : ScopeKind.ofNodeKind? node.kind = some scope) (around : Surroundings)
    : (Rule.anonymousClassMethodCount limit).checker.found context node around
      = if node.kind = .anonymousClass then node.crowdedBase limit else [] := by
  cases List.mem_singleton.mp among
  rw [Checker.found_eq, Checker.stepAt, reactionFor?_methodCount]
  revert isScope
  cases node.kind <;> simp [ScopeKind.ofNodeKind?, Reaction.skip, Reaction.stop, Step.skip,
    Step.stop]

/-- The bases reported are those of the attached anonymous classes with too many methods. -/
theorem Rule.mem_anchors_methodCount {limit : Threshold} {tree : Tree} (linked : tree.Linked)
    {id : NodeId}
    : id ∈ ((Rule.anonymousClassMethodCount limit).anchors tree).map Subtree.id
      ↔ ∃ anonymous ∈ tree.preorder, tree.CrowdedBase limit anonymous id := by
  rw [List.mem_map]
  simp only [mem_anchors_iff]
  constructor
  · rintro ⟨anchor, ⟨node, scope, among, attached, shown, isScope, member⟩, rfl⟩
    rw [found_methodCount _ among isScope] at member
    split at member
    · next isAnonymous =>
        exact ⟨node.id, attached,
          (tree.mem_crowdedBase_iff shown isAnonymous).mp (List.mem_map_of_mem member)⟩
    · cases member
  · rintro ⟨anonymous, attached, crowded⟩
    obtain ⟨node, shown⟩ := linked.subtree?_exists (Tree.lt_size_of_kind? crowded.1)
    obtain rfl := Tree.subtree?_id shown
    have isAnonymous : node.kind = .anonymousClass := Tree.kind_of_shown shown crowded.1
    obtain ⟨anchor, member, same⟩ :=
      List.mem_map.mp ((tree.mem_crowdedBase_iff shown isAnonymous).mpr crowded)
    have among : ScopeKind.classScope ∈ (Rule.anonymousClassMethodCount limit).profile.scopes :=
      List.mem_singleton.mpr rfl
    have isScope : ScopeKind.ofNodeKind? node.kind = some .classScope := by
      rw [isAnonymous]
      rfl
    refine ⟨anchor, ⟨node, .classScope, among, attached, shown, isScope, ?_⟩, same⟩
    rw [found_methodCount _ among isScope, if_pos isAnonymous]
    exact member

-----------------------------------------------------------------------------------------
-- Type parameters
-----------------------------------------------------------------------------------------

/-- The node is a type parameter with a bound that says nothing. -/
def Tree.ExtendsObject (tree : Tree) (id : NodeId) : Prop :=
  tree.kind? id = some .typeParameter
  ∧ ∃ bound content,
      tree.parent? bound = some id
      ∧ tree.content? bound = some content
      ∧ content.NamesObject

/-- The node is part of a class, and no other class is between. -/
def Tree.InClass (tree : Tree) (id : NodeId) : Prop :=
  ∃ owner ∈ tree.preorder,
    tree.isClassAt owner
    ∧ ∃ child, tree.parent? child = some owner ∧ ReflTransGen tree.CodeParent child id

/-- The test for a type parameter with a bound that says nothing. -/
def Subtree.extendsObject (node : Subtree) : Bool :=
  node.kind = .typeParameter && !node.objectBounds.isEmpty

theorem Rule.reactionFor?_typeParameter (context : PassContext) (kind : NodeKind)
    : Rule.typeParameterExtendsObject.checker.reactionFor? context kind
      = if kind.isClass then
          some (.walkRoot context.scope)
        else if kind = .typeParameter then
          some (.walk (Subtree.selfIf fun parameter => !parameter.objectBounds.isEmpty))
        else
          none := by
  cases kind <;> rfl

theorem Tree.extendsObject_iff {tree : Tree} (linked : tree.Linked) {node : Subtree}
    (shown : tree.subtree? node.id = some node)
    : node.extendsObject ↔ tree.ExtendsObject node.id := by
  have bounds : (!node.objectBounds.isEmpty) = true
      ↔ ∃ bound, bound ∈ node.objectBounds.map Subtree.id := by
    cases node.objectBounds with
    | nil => simp
    | cons bound _ => exact iff_of_true rfl ⟨bound.id, List.mem_cons_self⟩
  rw [Subtree.extendsObject, ExtendsObject, kind?_of_shown shown, Bool.and_eq_true,
    decide_eq_true_iff, Option.some.injEq, bounds]
  simp only [mem_objectBounds_ids shown, linked.agree, exists_and_left]

/-- Below the class that is looked at, the walk reports the type parameters in the code, by
induction on the subtree.
-/
theorem Rule.found_typeParameter (context : PassContext) (node : Subtree)
    (foreign : context.scope.root ∉ node.nodes.map Subtree.id) (around : Surroundings)
    : Rule.typeParameterExtendsObject.checker.found context node around
      = node.codeNodes.filter Subtree.extendsObject := by
  induction node using Subtree.induction generalizing around with
  | step node ih =>
      have apart : node.id ≠ context.scope.root := fun same =>
        foreign (same ▸ List.mem_map_of_mem node.self_mem_nodes)
      have below (around : Surroundings)
          : (node.children.flatMap fun child =>
              Rule.typeParameterExtendsObject.checker.found context child around)
            = (node.children.flatMap Subtree.codeNodes).filter Subtree.extendsObject := by
        rw [List.filter_flatMap]
        refine List.flatMap_congr fun child member => ih child member (fun inside => ?_) around
        obtain ⟨inner, among, same⟩ := List.mem_map.mp inside
        exact foreign (same ▸ List.mem_map_of_mem
          (Subtree.mem_nodes_iff.mpr (Or.inr ⟨child, member, among⟩)))
      rw [Checker.found_eq, Checker.stepAt, reactionFor?_typeParameter, Subtree.codeNodes_eq]
      by_cases isClass : node.kind.isClass
      · rw [if_pos isClass, if_pos isClass]
        simp [Reaction.walkRoot, apart, Step.skip]
      · rw [if_neg isClass, if_neg isClass, List.filter_append, ← below around]
        by_cases isParameter : node.kind = .typeParameter
        · rw [if_pos isParameter]
          simp [Reaction.walk, Step.walk, Subtree.selfIf, Subtree.extendsObject, isParameter,
            List.filter_singleton]
        · rw [if_neg isParameter]
          simp [Step.walk, Subtree.extendsObject, isParameter]

/-- The type parameters reported are those with a bound that says nothing, if they belong to an
attached class.
-/
theorem Rule.mem_anchors_typeParameter {tree : Tree} (coherent : tree.Coherent) {id : NodeId}
    : id ∈ (Rule.typeParameterExtendsObject.anchors tree).map Subtree.id
      ↔ tree.InClass id ∧ tree.ExtendsObject id := by
  have foundAt {node : Subtree} (shown : tree.subtree? node.id = some node)
      (isClass : node.kind.isClass) (scope : ScopeKind)
      : Rule.typeParameterExtendsObject.checker.found { tree, scope := ⟨scope, node.id⟩ } node { }
        = (node.children.flatMap Subtree.codeNodes).filter Subtree.extendsObject := by
    rw [Checker.found_eq, Checker.stepAt, reactionFor?_typeParameter, if_pos isClass,
      List.filter_flatMap]
    have once := coherent.nodes_nodup shown
    rw [Subtree.nodes_eq, List.map_cons, List.nodup_cons, List.map_flatMap] at once
    have below := List.flatMap_congr fun child member =>
      found_typeParameter { tree, scope := ⟨scope, node.id⟩ } child
        (fun inside => once.1 (List.mem_flatMap.mpr ⟨child, member, inside⟩)) { }
    simp [Reaction.walkRoot, Step.walk, below]
  rw [List.mem_map]
  simp only [mem_anchors_iff]
  constructor
  · rintro ⟨parameter, ⟨node, scope, among, attached, shown, isScope, member⟩, rfl⟩
    cases List.mem_singleton.mp among
    have isClass : node.kind.isClass := by
      revert isScope
      cases node.kind <;> decide
    rw [foundAt shown isClass, List.mem_filter, List.mem_flatMap] at member
    obtain ⟨⟨child, below, inside⟩, extends_⟩ := member
    obtain ⟨childShown, listed⟩ := Tree.subtree?_of_mem_children shown below
    have parameterShown := Tree.subtree?_of_mem_nodes childShown
      (Subtree.mem_nodes_of_mem_codeNodes inside)
    refine ⟨⟨node.id, attached, (Tree.isClassAt_of_shown shown).trans isClass, child.id,
      coherent.agree.mp listed, ?_⟩,
      (Tree.extendsObject_iff coherent.toLinked parameterShown).mp extends_⟩
    exact ((coherent.mem_codeNodes_iff childShown).mp (List.mem_map_of_mem inside)).2
  · rintro ⟨⟨owner, attached, isClass, child, up, way⟩, extends_⟩
    obtain ⟨node, shown⟩ := coherent.subtree?_exists (coherent.lt_size_of_mem_preorder attached)
    obtain rfl := Tree.subtree?_id shown
    rw [Tree.isClassAt_of_shown shown] at isClass
    obtain ⟨below, member, rfl⟩ := coherent.child_of_parent? shown up
    have belowShown := (Tree.subtree?_of_mem_children shown member).1
    have outside : tree.isClassAt id = false := by
      rw [Tree.isClassAt, extends_.1]
      rfl
    obtain ⟨parameter, inside, rfl⟩ :=
      List.mem_map.mp ((coherent.mem_codeNodes_iff belowShown).mpr ⟨outside, way⟩)
    have parameterShown := Tree.subtree?_of_mem_nodes belowShown
      (Subtree.mem_nodes_of_mem_codeNodes inside)
    have isScope : ScopeKind.ofNodeKind? node.kind = some .classScope := by
      revert isClass
      cases node.kind <;> decide
    refine ⟨parameter, ⟨node, .classScope, List.mem_singleton.mpr rfl, attached, shown, isScope, ?_⟩,
      rfl⟩
    rw [foundAt shown isClass, List.mem_filter, List.mem_flatMap]
    exact ⟨⟨below, member, inside⟩,
      (Tree.extendsObject_iff coherent.toLinked parameterShown).mpr extends_⟩

end TreeLint
