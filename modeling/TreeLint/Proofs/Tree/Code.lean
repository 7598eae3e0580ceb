import Mathlib.Data.List.Perm.Subperm
import TreeLint.Proofs.Tree.Contents
import TreeLint.Proofs.Tree.Nearest
import TreeLint.Scope

/-! The code of a member of a class: the member and what hangs below it without a class on the way.
A walk that stays out of classes visits the code of the member that it starts at. Where no member
stands in the code of another one, the walks of all members visit no node twice.
-/

namespace TreeLint

open Relation

-----------------------------------------------------------------------------------------
-- Scopes
-----------------------------------------------------------------------------------------

theorem Scope.ofNode?_eq (tree : Tree) (id : NodeId)
    : Scope.ofNode? tree id
      = ((tree.kind? id).bind ScopeKind.ofNodeKind?).map fun kind => ⟨kind, id⟩ := by
  rw [Scope.ofNode?, Tree.kind?]
  cases tree.content? id with
  | none => rfl
  | some content =>
      change (ScopeKind.ofNodeKind? content.kind).bind _
        = (ScopeKind.ofNodeKind? content.kind).map _
      cases ScopeKind.ofNodeKind? content.kind <;> rfl

/-- The scopes of some kinds are those of the attached nodes that make such scopes. -/
theorem Scope.mem_collect_iff {tree : Tree} {kinds : List ScopeKind} {scope : Scope}
    : scope ∈ Scope.collect tree kinds
      ↔ scope.root ∈ tree.preorder
        ∧ scope.kind ∈ kinds
        ∧ ∃ kind,
            tree.kind? scope.root = some kind
            ∧ ScopeKind.ofNodeKind? kind = some scope.kind := by
  rw [collect, List.mem_filter, List.mem_filterMap, List.contains_iff_mem]
  simp only [ofNode?_eq, Option.map_eq_some_iff, Option.bind_eq_some_iff]
  constructor
  · rintro ⟨⟨id, attached, kind, ⟨nodeKind, isKind, isScope⟩, rfl⟩, among⟩
    exact ⟨attached, among, nodeKind, isKind, isScope⟩
  · rintro ⟨attached, among, nodeKind, isKind, isScope⟩
    exact ⟨⟨scope.root, attached, scope.kind, ⟨nodeKind, isKind, isScope⟩, rfl⟩, among⟩

/-- They come in the order of the attached nodes, by induction on these. -/
theorem Scope.collect_roots (tree : Tree) (kinds : List ScopeKind)
    : (Scope.collect tree kinds).map (·.root)
      = tree.preorder.filter fun id =>
          ((tree.kind? id).bind ScopeKind.ofNodeKind?).any kinds.contains := by
  rw [collect]
  induction tree.preorder with
  | nil => rfl
  | cons id rest ih =>
      rw [List.filterMap_cons, List.filter_cons, ofNode?_eq]
      cases (tree.kind? id).bind ScopeKind.ofNodeKind? with
      | none => exact ih
      | some kind =>
          rw [Option.map_some, List.filter_cons, Option.any_some]
          split
          · rw [List.map_cons, ih]
          · exact ih

-----------------------------------------------------------------------------------------
-- Members and their code
-----------------------------------------------------------------------------------------

namespace Tree

/-- The node is a class, named or anonymous. -/
def isClassAt (tree : Tree) (id : NodeId) : Bool :=
  (tree.kind? id).any (·.isClass)

/-- The node is a method, a field or an enum constant. -/
def isMemberAt (tree : Tree) (id : NodeId) : Bool :=
  (tree.kind? id).any [.method, .field, .enumConstant].contains

/-- The node is a method. -/
def isMethodAt (tree : Tree) (id : NodeId) : Bool :=
  tree.kind? id == some .method

/-- The second node hangs right below the first, which is no class. -/
def CodeParent (tree : Tree) (upper lower : NodeId) : Prop :=
  tree.IsParent upper lower ∧ tree.isClassAt upper = false

/-- The node is a member of a class or hangs below one with no class between. -/
def InMember (tree : Tree) (id : NodeId) : Prop :=
  ∃ member, tree.isMemberAt member ∧ ReflTransGen tree.CodeParent member id

/-- Between an attached member and every member above it there is a class. -/
def MembersApart (tree : Tree) : Prop :=
  ∀ lower ∈ tree.preorder, tree.isMemberAt lower →
    ∀ upper ∈ tree.ancestors lower, tree.isMemberAt upper →
      ∃ between ∈ tree.ancestors lower, tree.isClassAt between ∧ upper ∈ tree.ancestors between

instance (tree : Tree) : Decidable tree.MembersApart :=
  inferInstanceAs (Decidable (∀ _ ∈ _, _ → ∀ _ ∈ _, _ → ∃ _ ∈ _, _ ∧ _))

/-- Between an attached node that passes the test and every one above it that does there is a class.
-/
def SetApart (tree : Tree) (test : NodeId → Bool) : Prop :=
  ∀ lower ∈ tree.preorder, test lower →
    ∀ upper ∈ tree.ancestors lower, test upper →
      ∃ between ∈ tree.ancestors lower, tree.isClassAt between ∧ upper ∈ tree.ancestors between

instance (tree : Tree) (test : NodeId → Bool) : Decidable (tree.SetApart test) :=
  inferInstanceAs (Decidable (∀ _ ∈ _, _ → ∀ _ ∈ _, _ → ∃ _ ∈ _, _ ∧ _))

theorem isClassAt_of_shown {tree : Tree} {found : Subtree}
    (shown : tree.subtree? found.id = some found)
    : tree.isClassAt found.id = found.kind.isClass := by
  rw [isClassAt, kind?_of_shown shown, Option.any_some]

theorem isClassAt_of_isMethodAt {tree : Tree} {id : NodeId} (isMethod : tree.isMethodAt id)
    : tree.isClassAt id = false := by
  rw [isMethodAt, beq_iff_eq] at isMethod
  rw [isClassAt, isMethod]
  rfl

/-- The class around a node is the nearest ancestor that is a class. -/
theorem enclosingClass?_eq (tree : Tree) (id : NodeId)
    : tree.enclosingClass? id = (tree.ancestors id).find? tree.isClassAt := by
  rw [enclosingClass?, findNode?]
  congr 1
  funext upper
  rw [isClassAt, kind?, Option.any_map]

end Tree

-----------------------------------------------------------------------------------------
-- The code below a node
-----------------------------------------------------------------------------------------

namespace Subtree

/-- The nodes reached from a node without entering a class, each behind those below it. -/
def codeNodes (node : Subtree) : List Subtree :=
  node.recurse fun node children =>
    if node.kind.isClass then [] else (children.flatMap fun (_, inner) => inner) ++ [node]

theorem codeNodes_eq (node : Subtree)
    : node.codeNodes
      = if node.kind.isClass then [] else node.children.flatMap codeNodes ++ [node] := by
  rw [codeNodes, recurse_eq]
  simp only [List.flatMap_map]
  rfl

theorem mem_codeNodes_iff {node inner : Subtree}
    : inner ∈ node.codeNodes
      ↔ node.kind.isClass = false
        ∧ (inner = node ∨ ∃ child ∈ node.children, inner ∈ child.codeNodes) := by
  rw [codeNodes_eq]
  cases node.kind.isClass <;> simp [or_comm]

/-- The code below a node is some of the nodes below it, in another order, by induction on the
subtree.
-/
theorem codeNodes_subperm (node : Subtree) : node.codeNodes.Subperm node.nodes := by
  induction node using Subtree.induction with
  | step node ih =>
      have below : ∀ children : List Subtree, (∀ child ∈ children, child ∈ node.children)
          → (children.flatMap codeNodes).Subperm (children.flatMap nodes) := by
        intro children
        induction children with
        | nil => exact fun _ => .refl _
        | cons child rest restIH =>
            intro among
            rw [List.flatMap_cons, List.flatMap_cons]
            exact (ih child (among child List.mem_cons_self)).append
              (restIH fun other later => among other (List.mem_cons_of_mem child later))
      rw [codeNodes_eq, nodes_eq]
      split
      · exact List.nil_subperm
      · exact (List.perm_append_singleton node _).subperm.trans
          ((List.subperm_cons node).mpr (below node.children fun _ member => member))

/-- Code of code is code. -/
theorem mem_codeNodes_trans {node middle inner : Subtree}
    (upper : middle ∈ node.codeNodes) (lower : inner ∈ middle.codeNodes)
    : inner ∈ node.codeNodes := by
  induction node using Subtree.induction with
  | step node ih =>
      obtain ⟨outside, rfl | ⟨child, member, below⟩⟩ := mem_codeNodes_iff.mp upper
      · exact lower
      · exact mem_codeNodes_iff.mpr ⟨outside, Or.inr ⟨child, member, ih child member below⟩⟩

/-- The code below a node is among the nodes below it. -/
theorem mem_nodes_of_mem_codeNodes {node inner : Subtree} (member : inner ∈ node.codeNodes)
    : inner ∈ node.nodes :=
  node.codeNodes_subperm.subset member

end Subtree

namespace Tree

/-- The code below a node is what hangs below it with no class on the way, the node itself and
the end of the way included.
-/
theorem Linked.mem_codeNodes_iff {tree : Tree} (linked : tree.Linked) {found : Subtree}
    {id : NodeId} (shown : tree.subtree? found.id = some found)
    : id ∈ found.codeNodes.map Subtree.id
      ↔ tree.isClassAt id = false ∧ ReflTransGen tree.CodeParent found.id id := by
  constructor
  · intro member
    obtain ⟨inner, inside, rfl⟩ := List.mem_map.mp member
    clear member
    induction found using Subtree.induction with
    | step found ih =>
        obtain ⟨code, rfl | ⟨child, among, below⟩⟩ := Subtree.mem_codeNodes_iff.mp inside
        · exact ⟨(isClassAt_of_shown shown).trans code, .refl⟩
        · obtain ⟨childShown, listed⟩ := subtree?_of_mem_children shown among
          obtain ⟨outside, way⟩ := ih child among childShown below
          exact ⟨outside, way.head
            ⟨linked.agree.mp listed, (isClassAt_of_shown shown).trans code⟩⟩
  · rintro ⟨outside, downward⟩
    induction downward with
    | refl =>
        refine List.mem_map_of_mem (Subtree.mem_codeNodes_iff.mpr ⟨?_, Or.inl rfl⟩)
        exact (isClassAt_of_shown shown).symm.trans outside
    | @tail middle lower _ last ih =>
        obtain ⟨inner, member, rfl⟩ := List.mem_map.mp (ih last.2)
        have innerShown := subtree?_of_mem_nodes shown
          (Subtree.mem_nodes_of_mem_codeNodes member)
        obtain ⟨child, among, rfl⟩ := linked.child_of_parent? innerShown last.1
        have childShown := (subtree?_of_mem_children innerShown among).1
        have self : child ∈ child.codeNodes := Subtree.mem_codeNodes_iff.mpr
          ⟨(isClassAt_of_shown childShown).symm.trans outside, Or.inl rfl⟩
        refine List.mem_map_of_mem (Subtree.mem_codeNodes_trans member ?_)
        exact Subtree.mem_codeNodes_iff.mpr
          ⟨(isClassAt_of_shown innerShown).symm.trans last.2, Or.inr ⟨child, among, self⟩⟩

/-- A way through code is a way down the tree. -/
theorem reach_of_code {tree : Tree} {upper lower : NodeId}
    (way : ReflTransGen tree.CodeParent upper lower)
    : ReflTransGen tree.IsParent upper lower :=
  ReflTransGen.mono (fun _ _ step => step.1) _ _ way

/-- A strict way through code from a node to a lower one meets no class at or above the lower one
and below the upper one.
-/
theorem Linked.isClassAt_between {tree : Tree} (linked : tree.Linked)
    {upper between lower : NodeId} (way : ReflTransGen tree.CodeParent upper lower)
    (above : tree.Above upper between) (below : tree.Above between lower)
    : tree.isClassAt between = false := by
  induction way with
  | refl => exact absurd (above.trans below) (linked.acyclic upper)
  | @tail middle lower _ last ih =>
      obtain ⟨parent, link, position⟩ := above_iff.mp below
      obtain rfl : middle = parent := Option.some.inj (last.1.symm.trans link)
      rcases position with rfl | higher
      · exact last.2
      · exact ih higher

/-- The ways through code from a node that is no class lead to what it is above with no class
between.
-/
theorem Linked.clearlyAbove_code_iff {tree : Tree} (linked : tree.Linked) {upper lower : NodeId}
    (outside : tree.isClassAt upper = false)
    : tree.ClearlyAbove tree.isClassAt upper lower ↔ TransGen tree.CodeParent upper lower := by
  constructor
  · rintro ⟨above, clear⟩
    induction above with
    | single link => exact .single ⟨link, outside⟩
    | @tail middle lower above link ih =>
        have before := ih fun between under beyond => clear between under (beyond.tail link)
        exact before.tail ⟨link, clear middle above (.single link)⟩
  · intro way
    refine ⟨TransGen.mono (fun _ _ step => step.1) _ _ way, fun between under beyond => ?_⟩
    exact linked.isClassAt_between way.to_reflTransGen under beyond

-----------------------------------------------------------------------------------------
-- The code of all members
-----------------------------------------------------------------------------------------

/-- The code of the attached nodes that pass the test, node by node. -/
def codeFrom (tree : Tree) (test : NodeId → Bool) : List Subtree :=
  (tree.preorder.filter test).flatMap fun top => (tree.subtree? top).elim [] Subtree.codeNodes

/-- The scopes of members are the attached members. -/
theorem collect_members (tree : Tree)
    : (Scope.collect tree [.methodScope, .fieldScope]).map (·.root)
      = tree.preorder.filter tree.isMemberAt := by
  rw [Scope.collect_roots]
  refine List.filter_congr fun id _ => ?_
  rw [isMemberAt]
  cases tree.kind? id with
  | none => rfl
  | some kind => cases kind <;> rfl

/-- The scopes of methods are the attached methods. -/
theorem collect_methods (tree : Tree)
    : (Scope.collect tree [.methodScope]).map (·.root) = tree.preorder.filter tree.isMethodAt := by
  rw [Scope.collect_roots]
  refine List.filter_congr fun id _ => ?_
  rw [isMethodAt]
  cases tree.kind? id with
  | none => rfl
  | some kind => cases kind <;> rfl

/-- The code of the attached members, member by member. -/
def memberCode (tree : Tree) : List Subtree :=
  (tree.preorder.filter tree.isMemberAt).flatMap fun member =>
    (tree.subtree? member).elim [] Subtree.codeNodes

/-- An attached node is one that the root is above. -/
theorem Coherent.mem_preorder_iff {tree : Tree} (coherent : tree.Coherent) {id : NodeId}
    : id ∈ tree.preorder ↔ ReflTransGen tree.IsParent tree.root id := by
  obtain ⟨found, shown⟩ := coherent.subtree?_exists (contains_iff.mp coherent.rootPresent)
  have number := subtree?_id shown
  rw [coherent.preorder_eq shown, ← number]
  rw [← number] at shown
  exact coherent.mem_nodes_iff shown

/-- Nobody's attached number is listed twice. -/
theorem Coherent.preorder_nodup {tree : Tree} (coherent : tree.Coherent)
    : tree.preorder.Nodup := by
  obtain ⟨found, shown⟩ := coherent.subtree?_exists (contains_iff.mp coherent.rootPresent)
  rw [coherent.preorder_eq shown]
  rw [← subtree?_id shown] at shown
  exact coherent.nodes_nodup shown

/-- Attached numbers belong to nodes of the arena. -/
theorem Coherent.lt_size_of_mem_preorder {tree : Tree} (coherent : tree.Coherent) {id : NodeId}
    (attached : id ∈ tree.preorder)
    : id < tree.size := by
  cases ReflTransGen.cases_tail (coherent.mem_preorder_iff.mp attached) with
  | inl same => exact same ▸ contains_iff.mp coherent.rootPresent
  | inr last =>
      obtain ⟨parent, _, link⟩ := last
      exact lt_size_of_parent? link

/-- What the root is above, everything above is attached to. -/
theorem Coherent.attached_of_below {tree : Tree} (coherent : tree.Coherent)
    {upper lower : NodeId} (attached : lower ∈ tree.preorder)
    (below : ReflTransGen tree.IsParent upper lower)
    : upper ∈ tree.preorder := by
  have fromRoot := coherent.mem_preorder_iff.mp attached
  rcases above_comparable fromRoot below with chain | chain
  · exact coherent.mem_preorder_iff.mpr chain
  · -- Nothing is above the root, so a node at or above it is the root itself.
    rcases ReflTransGen.cases_tail chain with same | ⟨parent, _, link⟩
    · exact coherent.mem_preorder_iff.mpr (same ▸ .refl)
    · exact absurd (link.symm.trans coherent.rootTop) (by simp)

/-- The code of the nodes that pass the test is what a way through code leads to from one of them,
classes left out.
-/
theorem Coherent.mem_codeFrom_iff {tree : Tree} (coherent : tree.Coherent)
    {test : NodeId → Bool} {node : Subtree}
    : node ∈ tree.codeFrom test
      ↔ tree.subtree? node.id = some node ∧ node.id ∈ tree.preorder
        ∧ node.kind.isClass = false
        ∧ ∃ top, test top ∧ ReflTransGen tree.CodeParent top node.id := by
  rw [codeFrom, List.mem_flatMap]
  constructor
  · rintro ⟨top, listed, among⟩
    obtain ⟨attached, passes⟩ := List.mem_filter.mp listed
    obtain ⟨found, shown⟩ := coherent.subtree?_exists (coherent.lt_size_of_mem_preorder attached)
    rw [shown] at among
    obtain rfl := subtree?_id shown
    have nodeShown := subtree?_of_mem_nodes shown (Subtree.mem_nodes_of_mem_codeNodes among)
    obtain ⟨outside, way⟩ := (coherent.mem_codeNodes_iff shown).mp (List.mem_map_of_mem among)
    refine ⟨nodeShown, ?_, (isClassAt_of_shown nodeShown).symm.trans outside,
      found.id, passes, way⟩
    exact coherent.mem_preorder_iff.mpr
      ((coherent.mem_preorder_iff.mp attached).trans (reach_of_code way))
  · rintro ⟨shown, attached, outside, top, passes, way⟩
    have above := coherent.attached_of_below attached (reach_of_code way)
    refine ⟨top, List.mem_filter.mpr ⟨above, passes⟩, ?_⟩
    obtain ⟨found, foundShown⟩ :=
      coherent.subtree?_exists (coherent.lt_size_of_mem_preorder above)
    rw [foundShown]
    obtain rfl := subtree?_id foundShown
    have listed := (coherent.mem_codeNodes_iff foundShown).mpr
      ⟨(isClassAt_of_shown shown).trans outside, way⟩
    obtain ⟨other, among, same⟩ := List.mem_map.mp listed
    have otherShown := subtree?_of_mem_nodes foundShown
      (Subtree.mem_nodes_of_mem_codeNodes among)
    rw [same, shown] at otherShown
    exact Option.some.inj otherShown ▸ among

/-- The code of the members is the attached nodes in members, classes left out. -/
theorem Coherent.mem_memberCode_iff {tree : Tree} (coherent : tree.Coherent) {node : Subtree}
    : node ∈ tree.memberCode
      ↔ tree.subtree? node.id = some node ∧ node.id ∈ tree.preorder
        ∧ node.kind.isClass = false ∧ tree.InMember node.id :=
  coherent.mem_codeFrom_iff

/-- Where the nodes that pass the test are apart, at most one of them has a node in its code: of two
the higher one would have the other in its code.
-/
theorem Coherent.top_unique {tree : Tree} (coherent : tree.Coherent) {test : NodeId → Bool}
    (apart : tree.SetApart test) {first second id : NodeId}
    (firstPasses : test first) (secondPasses : test second)
    (attached : first ∈ tree.preorder) (others : second ∈ tree.preorder)
    (fromFirst : ReflTransGen tree.CodeParent first id)
    (fromSecond : ReflTransGen tree.CodeParent second id)
    : first = second := by
  have separate {upper lower : NodeId} (isUpper : test upper)
      (isLower : test lower) (listed : lower ∈ tree.preorder)
      (way : ReflTransGen tree.CodeParent upper id)
      (below : ReflTransGen tree.IsParent lower id)
      (chain : ReflTransGen tree.IsParent upper lower)
      : upper = lower := by
    rcases reflTransGen_iff_eq_or_transGen.mp chain with same | above
    · exact same.symm
    · obtain ⟨between, under, isClass, beyond⟩ :=
        apart lower listed isLower upper (coherent.mem_ancestors.mpr above) isUpper
      have clear := coherent.isClassAt_between way (coherent.mem_ancestors.mp beyond)
        ((coherent.mem_ancestors.mp under).trans_left below)
      exact absurd (clear.symm.trans isClass) (by simp)
  rcases above_comparable (reach_of_code fromFirst) (reach_of_code fromSecond) with chain | chain
  · exact separate firstPasses secondPasses others fromFirst (reach_of_code fromSecond) chain
  · exact
      (separate secondPasses firstPasses attached fromSecond (reach_of_code fromFirst) chain).symm

/-- Where the nodes that pass the test are apart, no node is in their code twice. -/
theorem Coherent.codeFrom_nodup {tree : Tree} (coherent : tree.Coherent) {test : NodeId → Bool}
    (apart : tree.SetApart test)
    : ((tree.codeFrom test).map Subtree.id).Nodup := by
  have code {top id : NodeId} (attached : top ∈ tree.preorder)
      (listed : id ∈ ((tree.subtree? top).elim [] Subtree.codeNodes).map Subtree.id)
      : ReflTransGen tree.CodeParent top id := by
    obtain ⟨found, shown⟩ := coherent.subtree?_exists (coherent.lt_size_of_mem_preorder attached)
    obtain rfl := subtree?_id shown
    rw [shown] at listed
    exact ((coherent.mem_codeNodes_iff shown).mp listed).2
  rw [codeFrom, List.map_flatMap]
  refine List.nodup_flatMap.mpr ⟨?_, ?_⟩
  · intro top listed
    obtain ⟨found, shown⟩ := coherent.subtree?_exists
      (coherent.lt_size_of_mem_preorder (List.mem_filter.mp listed).1)
    obtain rfl := subtree?_id shown
    rw [shown]
    obtain ⟨reordered, same, sub⟩ := found.codeNodes_subperm
    exact (same.map Subtree.id).nodup_iff.mp
      ((sub.map Subtree.id).nodup (coherent.nodes_nodup shown))
  · refine (coherent.preorder_nodup.filter _).imp_of_mem ?_
    intro first second firstListed secondListed distinct id inFirst inSecond
    obtain ⟨firstAttached, firstPasses⟩ := List.mem_filter.mp firstListed
    obtain ⟨secondAttached, secondPasses⟩ := List.mem_filter.mp secondListed
    exact distinct (coherent.top_unique apart firstPasses secondPasses firstAttached secondAttached
      (code firstAttached inFirst) (code secondAttached inSecond))

/-- Where members are apart, no node is in the code of the members twice. -/
theorem Coherent.memberCode_nodup {tree : Tree} (coherent : tree.Coherent)
    (apart : tree.MembersApart)
    : (tree.memberCode.map Subtree.id).Nodup :=
  coherent.codeFrom_nodup apart

end Tree

end TreeLint
