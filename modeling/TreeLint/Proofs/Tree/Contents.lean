import TreeLint.Proofs.Tree.EditSteps
import TreeLint.Proofs.Tree.Subtrees

/-! What nodes say about themselves. A subtree says of each of its nodes what the arena says, so
questions about children can be asked of the arena; and an edit changes what one node says, or none.
-/

namespace TreeLint

/-- What a node says once text stands in its place. -/
def Content.asText (content : Content) (text : String) : Content :=
  { content with kind := .fragment, name := none, text := some text, modifiers := [], facts := { } }

/-- The child with a role has it. -/
theorem Subtree.role_of_childWithRole? {node child : Subtree} {role : Role}
    (found : node.childWithRole? role = some child)
    : child.role = role := by
  rw [childWithRole?] at found
  have passes := List.find?_some found
  exact eq_of_beq passes

namespace Tree

-----------------------------------------------------------------------------------------
-- Subtrees and the arena
-----------------------------------------------------------------------------------------

def kind? (tree : Tree) (id : NodeId) : Option NodeKind :=
  (tree.content? id).map (·.kind)

theorem kind?_eq_some_iff {tree : Tree} {id : NodeId} {kind : NodeKind}
    : tree.kind? id = some kind
      ↔ ∃ content, tree.content? id = some content ∧ content.kind = kind := by
  rw [kind?, Option.map_eq_some_iff]

/-- Only a node of the arena says something. -/
theorem lt_size_of_content? {tree : Tree} {id : NodeId} {content : Content}
    (known : tree.content? id = some content)
    : id < tree.size := by
  refine Nat.lt_of_not_le fun outside => ?_
  rw [content?, node?_eq_none_iff.mpr outside] at known
  exact absurd known (by simp)

theorem lt_size_of_kind? {tree : Tree} {id : NodeId} {kind : NodeKind}
    (isKind : tree.kind? id = some kind)
    : id < tree.size := by
  obtain ⟨content, known, _⟩ := kind?_eq_some_iff.mp isKind
  exact lt_size_of_content? known

/-- If the arena grew by one node, that has the number behind the old ones. -/
theorem eq_size_of_new {tree after : Tree} (grows : after.size = tree.size + 1) {id : NodeId}
    (new : tree.size ≤ id) (inside : id < after.size)
    : id = tree.size := by
  rw [grows] at inside
  exact Nat.le_antisymm (Nat.lt_succ_iff.mp inside) new

/-- Every number of the arena has a node. -/
theorem node?_exists {tree : Tree} {id : NodeId} (present : id < tree.size)
    : ∃ node, tree.node? id = some node :=
  Option.ne_none_iff_exists'.mp fun absent => Nat.not_le_of_lt present (node?_eq_none_iff.mp absent)

/-- Every node of the arena says something. -/
theorem content?_exists {tree : Tree} {id : NodeId} (present : id < tree.size)
    : ∃ content, tree.content? id = some content := by
  obtain ⟨node, here⟩ := node?_exists present
  exact ⟨node.content, by rw [content?, here, Option.map_some]⟩

/-- A found subtree says about its topmost node what the arena says. -/
theorem content?_of_shown {tree : Tree} {found : Subtree}
    (shown : tree.subtree? found.id = some found)
    : tree.content? found.id = some found.content := by
  obtain ⟨node, here, _, content, _⟩ := subtree?_eq_some shown
  rw [content?, here, Option.map_some, content]

theorem kind?_of_shown {tree : Tree} {found : Subtree}
    (shown : tree.subtree? found.id = some found)
    : tree.kind? found.id = some found.kind := by
  rw [kind?, content?_of_shown shown]
  rfl

/-- A found subtree has the kind that the arena says. -/
theorem kind_of_shown {tree : Tree} {found : Subtree} {kind : NodeKind}
    (shown : tree.subtree? found.id = some found) (isKind : tree.kind? found.id = some kind)
    : found.kind = kind :=
  Option.some.inj ((kind?_of_shown shown).symm.trans isKind)

/-- A child of a found subtree says about itself what the arena says. -/
theorem content?_of_mem_children {tree : Tree} {found child : Subtree}
    (shown : tree.subtree? found.id = some found) (member : child ∈ found.children)
    : tree.content? child.id = some child.content :=
  content?_of_shown (subtree?_of_mem_children shown member).1

/-- The children that pass a test are those that pass it in the arena. -/
theorem filter_children {tree : Tree} {found : Subtree}
    (shown : tree.subtree? found.id = some found) (test : Content → Bool)
    : (found.children.filter fun child => test child.content).map Subtree.id
      = (tree.childIds found.id).filter fun child => (tree.content? child).any test := by
  rw [← subtree?_children shown, List.filter_map]
  congr 1
  refine List.filter_congr fun child member => ?_
  rw [Function.comp_apply, content?_of_mem_children shown member, Option.any_some]

/-- The first child that passes a test is the first that passes it in the arena. -/
theorem find?_children {tree : Tree} {found : Subtree}
    (shown : tree.subtree? found.id = some found) (test : Content → Bool)
    : (found.children.find? fun child => test child.content).map Subtree.id
      = (tree.childIds found.id).find? fun child => (tree.content? child).any test := by
  rw [← List.head?_filter, ← List.head?_filter, ← filter_children shown test, List.head?_map]

/-- The child with a role, as the arena names it. -/
def childAt? (tree : Tree) (id : NodeId) (role : Role) : Option NodeId :=
  (tree.childIds id).find? fun child => (tree.content? child).any (·.role == role)

theorem childWithRole?_id {tree : Tree} {found : Subtree}
    (shown : tree.subtree? found.id = some found) (role : Role)
    : (found.childWithRole? role).map Subtree.id = tree.childAt? found.id role :=
  find?_children shown fun content => content.role == role

theorem childrenWithRole_ids {tree : Tree} {found : Subtree}
    (shown : tree.subtree? found.id = some found) (role : Role)
    : (found.childrenWithRole role).map Subtree.id
      = (tree.childIds found.id).filter fun child => (tree.content? child).any (·.role == role) :=
  filter_children shown fun content => content.role == role

/-- A found subtree has no child of a kind if the arena has none there. -/
theorem childrenOfKind_isEmpty_iff {tree : Tree} {found : Subtree}
    (shown : tree.subtree? found.id = some found) (kind : NodeKind)
    : (found.childrenOfKind kind).isEmpty
      ↔ ∀ child ∈ tree.childIds found.id, tree.kind? child ≠ some kind := by
  have numbers := filter_children shown fun content => content.kind == kind
  rw [Subtree.childrenOfKind, List.isEmpty_iff, ← List.map_eq_nil_iff]
  change (found.children.filter fun child => child.content.kind == kind).map _ = [] ↔ _
  rw [numbers, List.filter_eq_nil_iff]
  refine forall₂_congr fun child _ => not_congr ?_
  rw [kind?_eq_some_iff, Option.any_eq_true]
  simp only [beq_iff_eq]

/-- The local variables right below a node, in order. -/
def variablesOf (tree : Tree) (id : NodeId) : List NodeId :=
  (tree.childIds id).filter fun child => tree.kind? child == some .localVariable

theorem childrenOfKind_localVariable {tree : Tree} {found : Subtree}
    (shown : tree.subtree? found.id = some found)
    : (found.childrenOfKind .localVariable).map Subtree.id = tree.variablesOf found.id := by
  refine (filter_children shown fun content => content.kind == .localVariable).trans ?_
  refine List.filter_congr fun child _ => ?_
  rw [kind?]
  cases tree.content? child <;> rfl

-----------------------------------------------------------------------------------------
-- What edits leave of nodes
-----------------------------------------------------------------------------------------

section Nodes

variable {tree : Tree} {parent child id : NodeId} {index : Nat}

theorem cut_node?_other (notParent : id ≠ parent) (notChild : id ≠ child)
    : (tree.cut parent child).node? id = tree.node? id := by
  rw [cut, rearrange, updateNode_node?, if_neg notParent, relink, updateNode_node?,
    if_neg notChild]

theorem hang_node?_other (notParent : id ≠ parent) (notChild : id ≠ child)
    : (tree.hang parent index child).node? id = tree.node? id := by
  rw [hang, relink, updateNode_node?, if_neg notChild, rearrange, updateNode_node?,
    if_neg notParent]

theorem hang_node?_child (apart : child ≠ parent)
    : (tree.hang parent index child).node? child
      = (tree.node? child).map ({ · with parent := some parent }) := by
  rw [hang, relink, updateNode_node?, if_pos rfl, rearrange, updateNode_node?, if_neg apart]

theorem hang_node?_parent (apart : child ≠ parent)
    : (tree.hang parent index child).node? parent
      = (tree.node? parent).map fun node =>
          { node with
            children := node.children.insertIdx (min index node.children.length) child } := by
  rw [hang, relink, updateNode_node?, if_neg apart.symm, rearrange, updateNode_node?, if_pos rfl]

theorem reword_node?_other {f : Content → Content} {other : NodeId} (apart : other ≠ id)
    : (tree.reword id f).node? other = tree.node? other := by
  rw [reword, updateNode_node?, if_neg apart]

end Nodes

-----------------------------------------------------------------------------------------
-- What edits leave of what nodes say
-----------------------------------------------------------------------------------------

/-- Changing a node without what it says keeps what all nodes say. -/
theorem updateNode_content? (tree : Tree) (id : NodeId) (f : Node → Node)
    (keeps : ∀ node, (f node).content = node.content) (other : NodeId)
    : (tree.updateNode id f).content? other = tree.content? other := by
  rw [content?, content?, updateNode_node?]
  split
  · cases tree.node? other <;> simp [keeps]
  · rfl

theorem reword_content? (tree : Tree) (id : NodeId) (f : Content → Content) (other : NodeId)
    : (tree.reword id f).content? other
      = if other = id then (tree.content? other).map f else tree.content? other := by
  rw [reword, content?, content?, updateNode_node?]
  split
  · cases tree.node? other <;> rfl
  · rfl

@[simp] theorem relink_content? (tree : Tree) (id : NodeId) (parent : Option NodeId)
    (other : NodeId)
    : (tree.relink id parent).content? other = tree.content? other :=
  updateNode_content? tree id _ (fun _ => by rfl) other

@[simp] theorem rearrange_content? (tree : Tree) (id : NodeId) (f : List NodeId → List NodeId)
    (other : NodeId)
    : (tree.rearrange id f).content? other = tree.content? other :=
  updateNode_content? tree id _ (fun _ => by rfl) other

@[simp] theorem cut_content? (tree : Tree) (parent child id : NodeId)
    : (tree.cut parent child).content? id = tree.content? id := by
  simp [cut]

@[simp] theorem hang_content? (tree : Tree) (parent : NodeId) (index : Nat) (child id : NodeId)
    : (tree.hang parent index child).content? id = tree.content? id := by
  simp [hang]

@[simp] theorem orphan_content? (tree : Tree) (ids : List NodeId) (id : NodeId)
    : (tree.orphan ids).content? id = tree.content? id := by
  induction ids generalizing tree with
  | nil => rfl
  | cons first rest ih => exact (ih _).trans (relink_content? tree first none id)

theorem fragment_content? (tree : Tree) (id : NodeId) (text : String) (other : NodeId)
    : (tree.fragment id text).content? other
      = if other = id then (tree.content? other).map (·.asText text) else tree.content? other := by
  rw [fragment, content?, updateNode_node?]
  have same := tree.orphan_content? (tree.childIds id) other
  rw [content?] at same
  rw [← same]
  split
  · cases (tree.orphan (tree.childIds id)).node? other <;> rfl
  · rfl

theorem grow_content?_of_lt {tree : Tree} {outline : Outline} {id : NodeId} (old : id < tree.size)
    : (tree.grow outline).content? id = tree.content? id := by
  rw [content?, content?, grow_node?_of_lt old]

end Tree

mutual
/-- The numbered nodes of an outline say what the outline says. -/
theorem Outline.map_content_flatten (start : Nat) (parent : Option Nat) (outline : Outline)
    : (outline.flatten start parent).map (·.content) = outline.contents := by
  cases outline with
  | mk content children =>
      rw [flatten, List.map_cons, map_content_flattenAll, contents]

theorem Outline.map_content_flattenAll (start parent : Nat) (outlines : List Outline)
    : (flattenAll start parent outlines).map (·.content) = contentsAll outlines := by
  cases outlines with
  | nil => rfl
  | cons outline rest =>
      rw [flattenAll, List.map_append, map_content_flatten, map_content_flattenAll, contentsAll]
end

/-- The new nodes say what the outline says, in its order. -/
theorem Tree.grow_content?_add (tree : Tree) (outline : Outline) (i : Nat)
    : (tree.grow outline).content? (tree.size + i) = outline.contents[i]? := by
  rw [content?, grow_node?_add, ← outline.map_content_flatten tree.size none, List.getElem?_map]

end TreeLint
