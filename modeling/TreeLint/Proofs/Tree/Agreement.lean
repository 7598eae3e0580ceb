import TreeLint.Proofs.Tree.Attachment
import TreeLint.Proofs.Tree.Contents
import TreeLint.Tree.Loading

/-! Trees that agree on part of their nodes. Where two arenas have the same contents and the same
children at and below a node, they show the same subtree there; and if they agree on what is
attached, they are written to the same document.
-/

namespace TreeLint

open Relation

namespace Tree

/-- The two trees are of one file, whatever their nodes. -/
structure SameFile (tree other : Tree) : Prop where
  path : other.path = tree.path
  source : other.source = tree.source
  level : other.languageLevel = tree.languageLevel
  writable : other.writable = tree.writable

theorem SameFile.trans {tree middle after : Tree} (first : tree.SameFile middle)
    (second : middle.SameFile after)
    : tree.SameFile after where
  path := second.path.trans first.path
  source := second.source.trans first.source
  level := second.level.trans first.level
  writable := second.writable.trans first.writable

/-- The other tree has the node with the same content and the same children. -/
structure SameNode (tree other : Tree) (id : NodeId) : Prop where
  content : other.content? id = tree.content? id
  children : other.childIds id = tree.childIds id

/-- A list of subtrees is found by its numbers. -/
theorem map_subtree? {tree : Tree} {found : List Subtree}
    (shown : ∀ node ∈ found, tree.subtree? node.id = some node)
    : (found.map Subtree.id).map tree.subtree? = found.map some := by
  rw [List.map_map]
  exact List.map_congr_left shown

/-- A node of a linked tree is shown with its content and with the subtrees of its children. -/
theorem Linked.subtree?_of_children {tree : Tree} (linked : tree.Linked) {id : NodeId}
    {content : Content} {children : List Subtree} (known : tree.content? id = some content)
    (numbers : tree.childIds id = children.map Subtree.id)
    (each : ∀ child ∈ children, tree.subtree? child.id = some child)
    : tree.subtree? id = some (.mk id content children) := by
  obtain ⟨found, shown⟩ := linked.subtree?_exists (lt_size_of_content? known)
  obtain rfl := subtree?_id shown
  have foundEach : ∀ child ∈ found.children, tree.subtree? child.id = some child :=
    fun child member => (subtree?_of_mem_children shown member).1
  have same : found.children = children := by
    refine (List.map_injective_iff.mpr (Option.some_injective Subtree)) ?_
    rw [← map_subtree? foundEach, subtree?_children shown, numbers, map_subtree? each]
  have content := Option.some.inj ((content?_of_shown shown).symm.trans known)
  rw [shown]
  cases found
  cases same
  cases content
  rfl

/-- Where two linked trees agree at and below a node, they show the same subtree, by induction on
it.
-/
theorem Linked.subtree?_of_same {tree other : Tree} (linked : tree.Linked)
    (otherLinked : other.Linked) {found : Subtree} (shown : tree.subtree? found.id = some found)
    (same : ∀ id, ReflTransGen tree.IsParent found.id id → tree.SameNode other id)
    : other.subtree? found.id = some found := by
  induction found using Subtree.induction with
  | step found ih =>
      have top := same found.id .refl
      have known := top.content.trans (content?_of_shown shown)
      have numbers := top.children.trans (subtree?_children shown).symm
      have each : ∀ child ∈ found.children, other.subtree? child.id = some child := by
        intro child member
        refine ih child member (subtree?_of_mem_children shown member).1 fun id way => ?_
        exact same id (.head (linked.parent?_of_mem_children shown member) way)
      cases found
      exact otherLinked.subtree?_of_children known numbers each

/-- Trees of one file that agree on the attached nodes are written to the same document. -/
theorem Coherent.toDocument_of_same {tree other : Tree} (coherent : tree.Coherent)
    (otherLinked : other.Linked) (file : tree.SameFile other) (root : other.root = tree.root)
    (same : ∀ id, tree.Attached id → tree.SameNode other id)
    : other.toDocument = tree.toDocument := by
  obtain ⟨found, shown⟩ := coherent.subtree?_exists (contains_iff.mp coherent.rootPresent)
  have number := subtree?_id shown
  rw [← number] at shown
  have seen := coherent.subtree?_of_same otherLinked shown fun id way =>
    same id (by rwa [Attached, ← number])
  rw [toDocument, toDocument, file.path, file.source, file.level, file.writable, root, outline,
    outline, ← number, seen, shown]

end Tree

end TreeLint
