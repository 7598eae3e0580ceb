import Mathlib.Data.List.Find
import TreeLint.Proofs.Tree.Code
import TreeLint.Proofs.Tree.EditHistory
import TreeLint.Scope
import TreeLint.Tree.Location
import TreeLint.Tree.Resolution

/-! Which nodes are looked up. Whatever is asked of a node of a coherent arena, the answer names nodes
of the arena, and it would be the same whatever stood behind the arena, so nothing behind it is ever
looked at.
-/

namespace TreeLint

open Relation

namespace Tree

variable {tree other : Tree}

-----------------------------------------------------------------------------------------
-- Answers that name nodes of the arena
-----------------------------------------------------------------------------------------

/-- All numbers that are kept in an arena or that come of it are those of its nodes. -/
structure Closed (tree : Tree) : Prop where
  root : tree.root < tree.size
  parents : ∀ id parent, tree.parent? id = some parent → parent < tree.size
  children : ∀ id, ∀ child ∈ tree.childIds id, child < tree.size
  ancestors : ∀ id, ∀ upper ∈ tree.ancestors id, upper < tree.size
  enclosing : ∀ id upper, tree.enclosingClass? id = some upper → upper < tree.size
  labels : ∀ label id, tree.labelled? label = some id → id < tree.size
  declarations
    : ∀ content declaration,
        tree.resolve? content = some declaration → ∀ id ∈ declaration.id?, id < tree.size
  walk : ∀ id ∈ tree.preorder, id < tree.size
  scopes : ∀ kinds, ∀ scope ∈ Scope.collect tree kinds, scope.root < tree.size
  /-- A node of the arena has a subtree, and all of this is in the arena. -/
  subtrees
    : ∀ id < tree.size,
        ∃ found,
          tree.subtree? id = some found
          ∧ ∀ inner ∈ found.nodes,
              inner.id < tree.size ∧ tree.content? inner.id = some inner.content

/-- A reference leads to a node of the arena, if it leads to a node. -/
theorem lt_size_of_resolve? {content : Content} {declaration : Declaration}
    (leads : tree.resolve? content = some declaration)
    : ∀ id ∈ declaration.id?, id < tree.size := by
  intro id inside
  rw [resolve?] at leads
  split at leads
  · cases leads
  · next label _ =>
      obtain ⟨declared, found, leads⟩ := Option.bind_eq_some_iff.mp leads
      obtain ⟨_, _, same⟩ := Option.bind_eq_some_iff.mp leads
      cases same
      cases inside
      exact labelled?_lt found
  · cases leads
    cases inside

theorem Coherent.closed (coherent : tree.Coherent) : tree.Closed where
  root := contains_iff.mp coherent.rootPresent
  parents _ _ up := coherent.parent_lt up
  children _ _ member := coherent.child_lt member
  ancestors _ _ member := (coherent.above_lt (coherent.mem_ancestors.mp member)).1
  enclosing _ _ around :=
    (coherent.above_lt (coherent.mem_ancestors.mp (List.mem_of_find?_eq_some around))).1
  labels _ _ leads := labelled?_lt leads
  declarations _ _ leads := lt_size_of_resolve? leads
  walk _ member := coherent.lt_size_of_mem_preorder member
  scopes _ _ member := coherent.lt_size_of_mem_preorder (Scope.mem_collect_iff.mp member).1
  subtrees id present := by
    obtain ⟨found, shown⟩ := coherent.subtree?_exists present
    refine ⟨found, shown, fun inner inside => ?_⟩
    rw [← subtree?_id shown] at shown
    have known := content?_of_shown (subtree?_of_mem_nodes shown inside)
    exact ⟨lt_size_of_content? known, known⟩

-----------------------------------------------------------------------------------------
-- Arenas with something behind them
-----------------------------------------------------------------------------------------

theorem mapM_congr {f g : α → Option β} {items : List α} (same : ∀ item ∈ items, f item = g item)
    : items.mapM f = items.mapM g := by
  induction items with
  | nil => rfl
  | cons item rest ih =>
      rw [List.mapM_cons, List.mapM_cons, same item List.mem_cons_self,
        ih fun other member => same other (List.mem_cons_of_mem item member)]

/-- The tree with other nodes behind those of its arena. -/
def extend (tree : Tree) (behind : Array Node) : Tree :=
  { tree with nodes := tree.nodes ++ behind }

/-- The second tree is the first with other nodes behind those of its arena. Whatever they say and
wherever their links lead, no label leads to them.
-/
structure ContinuedBy (tree other : Tree) : Prop where
  path : other.path = tree.path
  source : other.source = tree.source
  level : other.languageLevel = tree.languageLevel
  root : other.root = tree.root
  grows : tree.size ≤ other.size
  nodes : ∀ id < tree.size, other.node? id = tree.node? id
  labelled : ∀ label, other.labelled? label = tree.labelled? label

theorem continuedBy_extend (tree : Tree) {behind : Array Node}
    (unlabelled : ∀ node ∈ behind, node.content.label = none)
    : tree.ContinuedBy (tree.extend behind) where
  path := rfl
  source := rfl
  level := rfl
  root := rfl
  grows := by
    rw [size, size, extend, Array.size_append]
    exact Nat.le_add_right _ _
  nodes _ old := Array.getElem?_append_left old
  labelled label := by
    have none : behind.findIdx? (·.content.label == some label) = none := by
      refine Array.findIdx?_eq_none_iff.mpr fun node member => ?_
      rw [unlabelled node member]
      rfl
    rw [labelled?, labelled?, extend, Array.findIdx?_append, none, Option.map_none, Option.or_none]

namespace ContinuedBy

variable (continued : tree.ContinuedBy other) {id : NodeId}

include continued

theorem content? (old : id < tree.size) : other.content? id = tree.content? id := by
  rw [Tree.content?, Tree.content?, continued.nodes id old]

theorem childIds (old : id < tree.size) : other.childIds id = tree.childIds id := by
  rw [Tree.childIds, Tree.childIds, continued.nodes id old]

theorem parent? (old : id < tree.size) : other.parent? id = tree.parent? id := by
  rw [Tree.parent?, Tree.parent?, continued.nodes id old]

theorem location? (old : id < tree.size) : other.location? id = tree.location? id := by
  rw [Tree.location?, Tree.location?, continued.content? old, continued.source, fileName,
    continued.path, ← fileName]

/-- A reference leads to the same declaration. -/
theorem resolve? (content : Content) : other.resolve? content = tree.resolve? content := by
  rw [Tree.resolve?, Tree.resolve?]
  split
  · rfl
  · next label _ =>
      rw [continued.labelled]
      cases leads : tree.labelled? label with
      | none => rfl
      | some id => simp only [Option.bind_eq_bind, Option.bind_some,
          continued.content? (labelled?_lt leads)]
  · rfl

variable (coherent : tree.Coherent)

include coherent

theorem parentContent? (old : id < tree.size)
    : other.parentContent? id = tree.parentContent? id := by
  rw [Tree.parentContent?, Tree.parentContent?, continued.parent? old]
  cases up : tree.parent? id with
  | none => rfl
  | some parent => exact continued.content? (coherent.parent_lt up)

/-- The way up does not leave the arena, by induction on the bound. -/
theorem ancestors (old : id < tree.size) : other.ancestors id = tree.ancestors id := by
  have same (bound : Nat) : ∀ id < tree.size,
      other.ancestorsWithin bound id = tree.ancestorsWithin bound id := by
    induction bound with
    | zero => exact fun _ _ => rfl
    | succ bound ih =>
        intro id old
        rw [ancestorsWithin, ancestorsWithin, continued.parent? old]
        cases up : tree.parent? id with
        | none => rfl
        | some parent => exact congrArg _ (ih parent (coherent.parent_lt up))
  rw [Tree.ancestors, same _ id old, coherent.ancestorsWithin_eq continued.grows]

/-- The first node above that passes a test is the same. -/
theorem findAbove? (old : id < tree.size) (test : Content → Bool)
    : other.findNode? test (other.ancestors id) = tree.findNode? test (tree.ancestors id) := by
  rw [continued.ancestors coherent old]
  refine List.find?_congr fun upper member => ?_
  rw [continued.content? (coherent.closed.ancestors id upper member)]

theorem enclosingClass? (old : id < tree.size)
    : other.enclosingClass? id = tree.enclosingClass? id :=
  continued.findAbove? coherent old _

/-- The class that declares a member is called the same. -/
theorem owner? {declaration : Declaration} (old : ∀ id ∈ declaration.id?, id < tree.size)
    : declaration.owner? other = declaration.owner? tree := by
  cases declaration with
  | outside symbol => rfl
  | inside id content =>
      have present : id < tree.size := old id rfl
      rw [Declaration.owner?, Declaration.owner?, continued.enclosingClass? coherent present]
      cases around : tree.enclosingClass? id with
      | none => rfl
      | some upper =>
          rw [Option.bind_some, Option.bind_some,
            continued.content? (coherent.closed.enclosing id upper around)]

/-- The way down does not leave the arena, by induction on the bound. -/
theorem subtree? (old : id < tree.size) : other.subtree? id = tree.subtree? id := by
  have same (bound : Nat) : ∀ id < tree.size,
      other.subtreeWithin bound id = tree.subtreeWithin bound id := by
    induction bound with
    | zero => exact fun _ _ => rfl
    | succ bound ih =>
        intro id old
        rw [subtreeWithin, subtreeWithin, continued.nodes id old]
        cases here : tree.node? id with
        | none => rfl
        | some node =>
            have below : node.children.mapM (other.subtreeWithin bound)
                = node.children.mapM (tree.subtreeWithin bound) := by
              refine mapM_congr fun child member => ih child (coherent.closed.children id child ?_)
              rwa [Tree.childIds, here]
            rw [Option.bind_eq_bind, Option.bind_some, Option.bind_some, below]
  obtain ⟨found, shown⟩ := coherent.subtree?_exists old
  rw [shown, Tree.subtree?, same _ id old]
  exact subtreeWithin_mono shown continued.grows

theorem parentSubtree? (old : id < tree.size)
    : other.parentSubtree? id = tree.parentSubtree? id := by
  rw [Tree.parentSubtree?, Tree.parentSubtree?, continued.parent? old]
  cases up : tree.parent? id with
  | none => rfl
  | some parent => exact continued.subtree? coherent (coherent.parent_lt up)

/-- The walk from the root does not leave the arena, by induction on the bound. -/
theorem preorder : other.preorder = tree.preorder := by
  have same (bound : Nat) : ∀ stack : List NodeId, (∀ id ∈ stack, id < tree.size) →
      other.preorderFrom bound stack = tree.preorderFrom bound stack := by
    induction bound with
    | zero => exact fun _ _ => rfl
    | succ bound ih =>
        intro stack old
        cases stack with
        | nil => rfl
        | cons id rest =>
            obtain ⟨present, others⟩ := List.forall_mem_cons.mp old
            rw [preorderFrom, preorderFrom, continued.childIds present]
            refine congrArg _ (ih _ fun next member => ?_)
            rcases List.mem_append.mp member with child | later
            · exact coherent.closed.children id next child
            · exact others next later
  obtain ⟨found, shown⟩ := coherent.subtree?_exists (contains_iff.mp coherent.rootPresent)
  have start : ∀ id ∈ [tree.root], id < tree.size :=
    List.forall_mem_singleton.mpr (contains_iff.mp coherent.rootPresent)
  rw [Tree.preorder, continued.root, same _ _ start,
    coherent.preorderFrom_eq shown continued.grows, coherent.preorder_eq shown]

/-- Passes run over the same scopes. -/
theorem collect (kinds : List ScopeKind) : Scope.collect other kinds = Scope.collect tree kinds := by
  rw [Scope.collect, Scope.collect, continued.preorder coherent]
  refine congrArg _ (List.filterMap_congr fun id member => ?_)
  rw [Scope.ofNode?, Scope.ofNode?, continued.content? (coherent.closed.walk id member)]

/-- The place among the children of the parent is the same. -/
theorem indexInParent? (old : id < tree.size)
    : other.indexInParent? id = tree.indexInParent? id := by
  rw [Tree.indexInParent?, Tree.indexInParent?, continued.parent? old]
  cases up : tree.parent? id with
  | none => rfl
  | some parent => rw [Option.bind_some, Option.bind_some, continued.childIds (coherent.parent_lt up)]

end ContinuedBy

-----------------------------------------------------------------------------------------
-- Trees that answer alike
-----------------------------------------------------------------------------------------

/-- Whatever is asked of nodes of the arena has the same answer in the other tree. -/
structure SameAnswers (tree other : Tree) : Prop where
  root : other.root = tree.root
  level : other.languageLevel = tree.languageLevel
  preorder : other.preorder = tree.preorder
  collect : ∀ kinds, Scope.collect other kinds = Scope.collect tree kinds
  contains : ∀ id < tree.size, other.contains id
  content : ∀ id < tree.size, other.content? id = tree.content? id
  children : ∀ id < tree.size, other.childIds id = tree.childIds id
  parent : ∀ id < tree.size, other.parent? id = tree.parent? id
  parentContent : ∀ id < tree.size, other.parentContent? id = tree.parentContent? id
  place : ∀ id < tree.size, other.indexInParent? id = tree.indexInParent? id
  ancestors : ∀ id < tree.size, other.ancestors id = tree.ancestors id
  /-- The first node above that passes a test. -/
  above
    : ∀ id < tree.size, ∀ test,
        other.findNode? test (other.ancestors id) = tree.findNode? test (tree.ancestors id)
  enclosingClass : ∀ id < tree.size, other.enclosingClass? id = tree.enclosingClass? id
  subtree : ∀ id < tree.size, other.subtree? id = tree.subtree? id
  parentSubtree : ∀ id < tree.size, other.parentSubtree? id = tree.parentSubtree? id
  location : ∀ id < tree.size, other.location? id = tree.location? id
  resolve : ∀ content, other.resolve? content = tree.resolve? content
  owner
    : ∀ content declaration,
        tree.resolve? content = some declaration → declaration.owner? other = declaration.owner? tree

theorem SameAnswers.refl (tree : Tree) : tree.SameAnswers tree where
  root := rfl
  level := rfl
  preorder := rfl
  collect _ := rfl
  contains _ := contains_iff.mpr
  content _ _ := rfl
  children _ _ := rfl
  parent _ _ := rfl
  parentContent _ _ := rfl
  place _ _ := rfl
  ancestors _ _ := rfl
  above _ _ _ := rfl
  enclosingClass _ _ := rfl
  subtree _ _ := rfl
  parentSubtree _ _ := rfl
  location _ _ := rfl
  resolve _ := rfl
  owner _ _ _ := rfl

/-- Nothing behind an arena is looked at. -/
theorem ContinuedBy.sameAnswers (continued : tree.ContinuedBy other) (coherent : tree.Coherent)
    : tree.SameAnswers other where
  root := continued.root
  level := continued.level
  preorder := continued.preorder coherent
  collect := continued.collect coherent
  contains _ old := contains_iff.mpr (Nat.lt_of_lt_of_le old continued.grows)
  content _ old := continued.content? old
  children _ old := continued.childIds old
  parent _ old := continued.parent? old
  parentContent _ old := continued.parentContent? coherent old
  place _ old := continued.indexInParent? coherent old
  ancestors _ old := continued.ancestors coherent old
  above _ old := continued.findAbove? coherent old
  enclosingClass _ old := continued.enclosingClass? coherent old
  subtree _ old := continued.subtree? coherent old
  parentSubtree _ old := continued.parentSubtree? coherent old
  location _ old := continued.location? old
  resolve := continued.resolve?
  owner _ _ leads := continued.owner? coherent (lt_size_of_resolve? leads)

end Tree

end TreeLint
