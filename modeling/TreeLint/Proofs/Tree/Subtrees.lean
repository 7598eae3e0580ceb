import Mathlib.Data.List.Forall2
import Mathlib.Data.List.Nodup
import TreeLint.Proofs.Tree.Links

/-! Subtrees seen from a linked arena. Every node of the arena has one, its nodes are the node and
what hangs below it, each once, and the walk with a stack meets them in the order of the subtree.
-/

namespace TreeLint

open Relation

-----------------------------------------------------------------------------------------
-- Recursion over a subtree
-----------------------------------------------------------------------------------------

namespace Subtree

/-- What holds of a subtree whenever it holds of those right below it holds of all subtrees. -/
theorem induction {motive : Subtree → Prop}
    (step : ∀ node, (∀ child ∈ node.children, motive child) → motive node)
    : ∀ node, motive node
  | .mk id content children => step (.mk id content children) fun child _ => induction step child
termination_by node => sizeOf node
decreasing_by
  have smaller := List.sizeOf_lt_of_mem (show child ∈ children by assumption)
  simp only [mk.sizeOf_spec]
  omega

/-- The nodes of several subtrees are those of each, in order. -/
theorem nodesAll_eq (nodes : List Subtree) : nodesAll nodes = nodes.flatMap Subtree.nodes := by
  induction nodes with
  | nil => rfl
  | cons node rest ih => rw [nodesAll, ih, List.flatMap_cons]

/-- The nodes of a subtree are itself and those of the subtrees right below. -/
theorem nodes_eq (node : Subtree)
    : node.nodes = node :: node.children.flatMap Subtree.nodes := by
  cases node with
  | mk id content children => rw [nodes, nodesAll_eq, Subtree.children]

theorem mem_nodes_iff {node inner : Subtree}
    : inner ∈ node.nodes ↔ inner = node ∨ ∃ child ∈ node.children, inner ∈ child.nodes := by
  rw [nodes_eq, List.mem_cons, List.mem_flatMap]

theorem self_mem_nodes (node : Subtree) : node ∈ node.nodes :=
  mem_nodes_iff.mpr (Or.inl rfl)

theorem mem_nodes_trans {node middle inner : Subtree}
    (upper : middle ∈ node.nodes) (lower : inner ∈ middle.nodes)
    : inner ∈ node.nodes := by
  induction node using Subtree.induction with
  | step node ih =>
      rcases mem_nodes_iff.mp upper with rfl | ⟨child, member, below⟩
      · exact lower
      · exact mem_nodes_iff.mpr (Or.inr ⟨child, member, ih child member below⟩)

end Subtree

-----------------------------------------------------------------------------------------
-- What a subtree of an arena shows
-----------------------------------------------------------------------------------------

/-- A function that fails nowhere on a list gives the list of its values, and only then. -/
theorem mapM_eq_some_iff {f : α → Option β} {items : List α} {values : List β}
    : items.mapM f = some values
      ↔ List.Forall₂ (fun item value => f item = some value) items values := by
  induction items generalizing values with
  | nil => cases values <;> simp
  | cons item rest ih =>
      cases values with
      | nil =>
          rw [List.mapM_cons]
          cases f item <;> cases rest.mapM f <;> simp
      | cons value values =>
          rw [List.mapM_cons, List.forall₂_cons, ← ih]
          cases f item <;> cases rest.mapM f <;> simp

namespace Tree

/-- A subtree within a bound is a node with the subtrees of its children within a smaller one. -/
theorem subtreeWithin_eq_some_iff {tree : Tree} {bound : Nat} {id : NodeId} {found : Subtree}
    : tree.subtreeWithin (bound + 1) id = some found
      ↔ ∃ node children,
          tree.node? id = some node
          ∧ found = .mk id node.content children
          ∧ List.Forall₂ (fun child below => tree.subtreeWithin bound child = some below)
              node.children children := by
  rw [subtreeWithin]
  cases here : tree.node? id with
  | none => simp
  | some node =>
      cases below : node.children.mapM (tree.subtreeWithin bound) with
      | none =>
          simp only [Option.bind_eq_bind, Option.bind_some, below, Option.bind_none, reduceCtorEq,
            Option.some.injEq, false_iff]
          rintro ⟨_, children, rfl, _, found⟩
          rw [mapM_eq_some_iff.mpr found] at below
          exact absurd below (by simp)
      | some children =>
          have shown := mapM_eq_some_iff.mp below
          simp only [Option.bind_eq_bind, Option.bind_some, below, Option.pure_def,
            Option.some.injEq]
          constructor
          · rintro rfl
            exact ⟨node, children, rfl, rfl, shown⟩
          · rintro ⟨_, others, rfl, rfl, found⟩
            have same := below.symm.trans (mapM_eq_some_iff.mpr found)
            rw [Option.some.inj same]

/-- A subtree found within a bound is found within every greater one. -/
theorem subtreeWithin_mono {tree : Tree} {bound greater : Nat} {id : NodeId} {found : Subtree}
    (within : tree.subtreeWithin bound id = some found) (le : bound ≤ greater)
    : tree.subtreeWithin greater id = some found := by
  induction bound generalizing greater id found with
  | zero => simp [subtreeWithin] at within
  | succ bound ih =>
      obtain ⟨greater, rfl⟩ : ∃ smaller, greater = smaller + 1 := ⟨greater - 1, by omega⟩
      obtain ⟨node, children, here, shape, below⟩ := subtreeWithin_eq_some_iff.mp within
      refine subtreeWithin_eq_some_iff.mpr ⟨node, children, here, shape, ?_⟩
      exact below.imp fun _ _ found => ih found (by omega)

theorem subtreeWithin_id {tree : Tree} {bound : Nat} {id : NodeId} {found : Subtree}
    (within : tree.subtreeWithin bound id = some found)
    : found.id = id := by
  cases bound with
  | zero => simp [subtreeWithin] at within
  | succ bound =>
      obtain ⟨_, _, _, rfl, _⟩ := subtreeWithin_eq_some_iff.mp within
      rfl

/-- Subtrees found for a list of numbers have these numbers and are found by them. -/
private theorem numbers_of_forall₂ {tree : Tree} {bound : Nat} {ids : List NodeId}
    {found : List Subtree}
    (shown : List.Forall₂ (fun id below => tree.subtreeWithin bound id = some below) ids found)
    : found.map Subtree.id = ids
      ∧ ∀ child ∈ found, tree.subtreeWithin bound child.id = some child := by
  induction shown with
  | nil => simp
  | cons first _ ih =>
      have number := subtreeWithin_id first
      refine ⟨by rw [List.map_cons, ih.1, number], ?_⟩
      intro child member
      rcases List.mem_cons.mp member with rfl | member
      · rwa [number]
      · exact ih.2 child member

/-- The subtree of a node shows the node, and below it the subtrees of its children in order. -/
theorem subtree?_eq_some {tree : Tree} {id : NodeId} {found : Subtree}
    (shown : tree.subtree? id = some found)
    : ∃ node,
        tree.node? id = some node
        ∧ found.id = id
        ∧ found.content = node.content
        ∧ found.children.map Subtree.id = node.children
        ∧ ∀ child ∈ found.children, tree.subtree? child.id = some child := by
  rw [subtree?] at shown
  cases bound : tree.size with
  | zero => rw [bound] at shown; simp [subtreeWithin] at shown
  | succ smaller =>
      rw [bound] at shown
      obtain ⟨node, children, here, rfl, below⟩ := subtreeWithin_eq_some_iff.mp shown
      obtain ⟨numbers, each⟩ := numbers_of_forall₂ below
      refine ⟨node, here, rfl, rfl, numbers, ?_⟩
      intro child member
      exact subtreeWithin_mono (each child member) (by omega)

theorem subtree?_id {tree : Tree} {id : NodeId} {found : Subtree}
    (shown : tree.subtree? id = some found)
    : found.id = id :=
  subtreeWithin_id shown

/-- The children of a subtree have the numbers of the children of its node. -/
theorem subtree?_children {tree : Tree} {id : NodeId} {found : Subtree}
    (shown : tree.subtree? id = some found)
    : found.children.map Subtree.id = tree.childIds id := by
  obtain ⟨node, here, _, _, numbers, _⟩ := subtree?_eq_some shown
  rw [numbers, childIds, here, Option.map_some, Option.getD_some]

theorem subtree?_of_mem_children {tree : Tree} {id : NodeId} {found child : Subtree}
    (shown : tree.subtree? id = some found) (member : child ∈ found.children)
    : tree.subtree? child.id = some child ∧ child.id ∈ tree.childIds id := by
  obtain ⟨_, _, _, _, _, each⟩ := subtree?_eq_some shown
  refine ⟨each child member, ?_⟩
  rw [← subtree?_children shown]
  exact List.mem_map_of_mem member

/-- Every node of a subtree is found with what is below it. -/
theorem subtree?_of_mem_nodes {tree : Tree} {found inner : Subtree}
    (shown : tree.subtree? found.id = some found) (member : inner ∈ found.nodes)
    : tree.subtree? inner.id = some inner := by
  induction found using Subtree.induction with
  | step found ih =>
      rcases Subtree.mem_nodes_iff.mp member with rfl | ⟨child, among, below⟩
      · exact shown
      · exact ih child among (subtree?_of_mem_children shown among).1 below

-----------------------------------------------------------------------------------------
-- Subtrees of linked arenas
-----------------------------------------------------------------------------------------

/-- With as many steps left as there are unvisited nodes, the subtree of a node is found.
The path holds the nodes above that the search came through.
-/
private theorem Linked.subtreeWithin_path {tree : Tree} (linked : tree.Linked)
    (bound : Nat) (id : NodeId) (path : List NodeId)
    (present : id < tree.size) (visited : ∀ upper ∈ path, tree.Above upper id)
    (distinct : path.Nodup) (enough : tree.size ≤ bound + path.length)
    : ∃ found, tree.subtreeWithin bound id = some found := by
  have fresh : id ∉ path := fun member => linked.acyclic id (visited id member)
  induction bound generalizing id path with
  | zero =>
      have bounded : ∀ other ∈ id :: path, other < tree.size := by
        intro other member
        rcases List.mem_cons.mp member with rfl | member
        · exact present
        · exact (linked.above_lt (visited other member)).1
      have short := length_lt_of_nodup (List.nodup_cons.mpr ⟨fresh, distinct⟩) bounded
      omega
  | succ bound ih =>
      obtain ⟨node, here⟩ : ∃ node, tree.node? id = some node := by
        cases found : tree.node? id with
        | none => exact absurd (node?_eq_none_iff.mp found) (Nat.not_le_of_lt present)
        | some node => exact ⟨node, rfl⟩
      have below : ∀ child ∈ node.children,
          ∃ found, tree.subtreeWithin bound child = some found := by
        intro child member
        have listed : child ∈ tree.childIds id := by simpa [childIds, here] using member
        have step : tree.IsParent id child := linked.agree.mp listed
        have onPath : ∀ upper ∈ id :: path, tree.Above upper child := by
          intro upper member
          rcases List.mem_cons.mp member with rfl | member
          · exact TransGen.single step
          · exact TransGen.tail (visited upper member) step
        exact ih child (id :: path) (linked.child_lt listed) onPath
          (List.nodup_cons.mpr ⟨fresh, distinct⟩) (by simp only [List.length_cons]; omega)
          fun member => linked.acyclic child (onPath child member)
      obtain ⟨children, found⟩ : ∃ children,
          List.Forall₂ (fun child found => tree.subtreeWithin bound child = some found)
            node.children children := by
        revert below
        induction node.children with
        | nil => exact fun _ => ⟨[], .nil⟩
        | cons child rest ih =>
            intro below
            obtain ⟨first, found⟩ := below child (by simp)
            obtain ⟨others, more⟩ := ih fun other member => below other (by simp [member])
            exact ⟨first :: others, .cons found more⟩
      exact ⟨_, subtreeWithin_eq_some_iff.mpr ⟨node, children, here, rfl, found⟩⟩

/-- Every node of a linked arena has a subtree. -/
theorem Linked.subtree?_exists {tree : Tree} (linked : tree.Linked) {id : NodeId}
    (present : id < tree.size)
    : ∃ found, tree.subtree? id = some found :=
  linked.subtreeWithin_path tree.size id [] present (by simp) List.nodup_nil (by simp)

/-- What hangs below a node is a child of its subtree. -/
theorem Linked.child_of_parent? {tree : Tree} (linked : tree.Linked) {id lower : NodeId}
    {found : Subtree} (shown : tree.subtree? id = some found)
    (link : tree.parent? lower = some id)
    : ∃ child ∈ found.children, child.id = lower := by
  obtain rfl := subtree?_id shown
  refine List.mem_map.mp ?_
  rw [subtree?_children shown]
  exact linked.agree.mpr link

/-- The nodes of a subtree are the node and everything that it is above. -/
theorem Linked.mem_nodes_iff {tree : Tree} (linked : tree.Linked) {found : Subtree} {id : NodeId}
    (shown : tree.subtree? found.id = some found)
    : id ∈ found.nodes.map Subtree.id ↔ ReflTransGen tree.IsParent found.id id := by
  constructor
  · intro member
    obtain ⟨inner, inside, rfl⟩ := List.mem_map.mp member
    clear member
    induction found using Subtree.induction with
    | step found ih =>
        rcases Subtree.mem_nodes_iff.mp inside with rfl | ⟨child, among, below⟩
        · exact .refl
        · obtain ⟨childShown, listed⟩ := subtree?_of_mem_children shown among
          exact (ih child among childShown below).head (linked.agree.mp listed)
  · intro downward
    induction downward with
    | refl => exact List.mem_map_of_mem (Subtree.self_mem_nodes found)
    | @tail middle lower _ last ih =>
        obtain ⟨inner, member, rfl⟩ := List.mem_map.mp ih
        have innerShown := subtree?_of_mem_nodes shown member
        obtain ⟨child, among, rfl⟩ := linked.child_of_parent? innerShown last
        refine List.mem_map_of_mem (Subtree.mem_nodes_trans member ?_)
        exact Subtree.mem_nodes_iff.mpr (Or.inr ⟨child, among, Subtree.self_mem_nodes child⟩)

/-- A child of the subtree of a node hangs below the node. -/
theorem Linked.parent?_of_mem_children {tree : Tree} (linked : tree.Linked) {id : NodeId}
    {found child : Subtree} (shown : tree.subtree? id = some found)
    (member : child ∈ found.children)
    : tree.parent? child.id = some id :=
  linked.agree.mp (subtree?_of_mem_children shown member).2

/-- A node of a subtree is at or below its topmost node. -/
theorem Linked.below_of_mem_nodes {tree : Tree} (linked : tree.Linked) {found inner : Subtree}
    (shown : tree.subtree? found.id = some found) (member : inner ∈ found.nodes)
    : ReflTransGen tree.IsParent found.id inner.id :=
  (linked.mem_nodes_iff shown).mp (List.mem_map_of_mem member)

/-- Two children of one node have nothing below them in common. -/
theorem Linked.siblings_disjoint {tree : Tree} (linked : tree.Linked)
    {parent first second lower : NodeId}
    (left : tree.parent? first = some parent) (right : tree.parent? second = some parent)
    (distinct : first ≠ second)
    (belowFirst : ReflTransGen tree.IsParent first lower)
    (belowSecond : ReflTransGen tree.IsParent second lower)
    : False := by
  have apart {upper lower : NodeId} (up : tree.parent? upper = some parent)
      (down : tree.parent? lower = some parent) (ne : upper ≠ lower)
      : ¬ReflTransGen tree.IsParent upper lower := by
    intro chain
    rcases reflTransGen_iff_eq_or_transGen.mp chain with same | above
    · exact ne same.symm
    · obtain ⟨middle, last, upward⟩ := above_iff.mp above
      have same : middle = parent := Option.some.inj (last.symm.trans down)
      subst same
      have cycle : tree.Above upper middle ∨ upper = middle := upward.symm
      rcases cycle with above | rfl
      · exact linked.acyclic upper (above.tail up)
      · exact linked.acyclic upper (TransGen.single up)
  rcases above_comparable belowFirst belowSecond with chain | chain
  · exact apart left right distinct chain
  · exact apart right left distinct.symm chain

theorem Linked.nodes_nodup {tree : Tree} (linked : tree.Linked) {found : Subtree}
    (shown : tree.subtree? found.id = some found)
    : (found.nodes.map Subtree.id).Nodup := by
  induction found using Subtree.induction with
  | step found ih =>
      have upward : ∀ child ∈ found.children, tree.parent? child.id = some found.id :=
        fun child member => linked.agree.mp (subtree?_of_mem_children shown member).2
      have below : ∀ child ∈ found.children, ∀ id ∈ child.nodes.map Subtree.id,
          ReflTransGen tree.IsParent child.id id := fun child member _ inside =>
        (linked.mem_nodes_iff (subtree?_of_mem_children shown member).1).mp inside
      have numbers : (found.children.map Subtree.id).Nodup := by
        rw [subtree?_children shown]
        exact linked.unique found.id
      rw [Subtree.nodes_eq, List.map_cons, List.map_flatMap]
      refine List.nodup_cons.mpr ⟨?_, List.nodup_flatMap.mpr ⟨?_, ?_⟩⟩
      · intro member
        obtain ⟨child, among, inside⟩ := List.mem_flatMap.mp member
        have step : tree.IsParent found.id child.id := upward child among
        exact linked.acyclic found.id (TransGen.head' step (below child among _ inside))
      · exact fun child member => ih child member (subtree?_of_mem_children shown member).1
      · refine (List.pairwise_map.mp numbers).imp_of_mem ?_
        intro first second firstAmong secondAmong distinct id inFirst inSecond
        exact linked.siblings_disjoint (upward first firstAmong) (upward second secondAmong)
          distinct (below first firstAmong id inFirst) (below second secondAmong id inSecond)

/-- A subtree has at most as many nodes as the arena. -/
theorem Linked.nodes_length_le {tree : Tree} (linked : tree.Linked) {found : Subtree}
    (shown : tree.subtree? found.id = some found)
    : found.nodes.length ≤ tree.size := by
  have inside : found.nodes.map Subtree.id ⊆ List.range tree.size := by
    intro id member
    obtain ⟨inner, among, rfl⟩ := List.mem_map.mp member
    obtain ⟨node, here, _⟩ := subtree?_eq_some (subtree?_of_mem_nodes shown among)
    refine List.mem_range.mpr (Nat.lt_of_not_le fun outside => ?_)
    rw [node?_eq_none_iff.mpr outside] at here
    exact absurd here (by simp)
  have short := (linked.nodes_nodup shown).length_le_of_subset inside
  simpa using short

-----------------------------------------------------------------------------------------
-- The walk with a stack
-----------------------------------------------------------------------------------------

/-- The walk with a stack takes the nodes of the topmost subtree before the rest of the stack. -/
theorem preorderFrom_nodes {tree : Tree} {found : Subtree}
    (shown : tree.subtree? found.id = some found) (bound : Nat) (stack : List NodeId)
    : tree.preorderFrom (found.nodes.length + bound) (found.id :: stack)
      = found.nodes.map Subtree.id ++ tree.preorderFrom bound stack := by
  induction found using Subtree.induction generalizing bound stack with
  | step found ih =>
      -- The stack under the first child holds the other children, so the list is taken apart.
      have each : ∀ below : List Subtree, (∀ child ∈ below, child ∈ found.children)
          → ∀ bound, tree.preorderFrom ((below.flatMap Subtree.nodes).length + bound)
              (below.map Subtree.id ++ stack)
            = (below.flatMap Subtree.nodes).map Subtree.id ++ tree.preorderFrom bound stack := by
        intro below
        induction below with
        | nil => intro _ bound; simp
        | cons child rest restIH =>
            intro among bound
            have member : child ∈ found.children := among child (by simp)
            have first := ih child member (subtree?_of_mem_children shown member).1
              ((rest.flatMap Subtree.nodes).length + bound) (rest.map Subtree.id ++ stack)
            have others := restIH (fun other later => among other (by simp [later])) bound
            rw [List.flatMap_cons, List.length_append, Nat.add_assoc, List.map_cons,
              List.cons_append, first, others, List.map_append, List.append_assoc]
      rw [Subtree.nodes_eq, List.length_cons, Nat.add_right_comm, preorderFrom,
        ← subtree?_children shown, each found.children (fun _ member => member) bound]
      rfl

/-- The walk from the root meets the nodes of the subtree of the root and then ends, whatever
its bound beyond the size of the arena.
-/
theorem Coherent.preorderFrom_eq {tree : Tree} (coherent : tree.Coherent) {found : Subtree}
    (shown : tree.subtree? tree.root = some found) {bound : Nat} (enough : tree.size ≤ bound)
    : tree.preorderFrom bound [tree.root] = found.nodes.map Subtree.id := by
  have number := subtree?_id shown
  rw [← number] at shown
  have short := coherent.nodes_length_le shown
  have walk := preorderFrom_nodes shown (bound - found.nodes.length) []
  rw [Nat.add_sub_cancel' (by omega), number] at walk
  rw [walk]
  cases bound - found.nodes.length <;> simp [preorderFrom]

/-- The attached nodes are those of the subtree of the root, in its order. -/
theorem Coherent.preorder_eq {tree : Tree} (coherent : tree.Coherent) {found : Subtree}
    (shown : tree.subtree? tree.root = some found)
    : tree.preorder = found.nodes.map Subtree.id :=
  coherent.preorderFrom_eq shown (Nat.le_refl _)

end Tree
end TreeLint
