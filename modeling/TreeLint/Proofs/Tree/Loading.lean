import TreeLint.Proofs.Fix.Reachability
import TreeLint.Proofs.Tree.Attachment
import TreeLint.Proofs.Tree.Documents

/-! Loading is faithful. Main result: a loaded tree has the nodes of its document under their
numbers in pre-order, and nothing else; and whatever edits leave in an arena, only what is attached
to the root is written and loaded again.
-/

namespace TreeLint

-----------------------------------------------------------------------------------------
-- Numbers of a numbered outline
-----------------------------------------------------------------------------------------

mutual
/-- The outline of a subtree has as many nodes as the subtree. -/
theorem Subtree.size_outline (node : Subtree) : node.outline.size = node.nodes.length := by
  cases node with
  | mk id content children =>
      rw [outline, Outline.size, size_outlineAll, nodes, List.length_cons]

theorem Subtree.size_outlineAll (nodes : List Subtree)
    : Outline.sizeAll (outlineAll nodes) = (nodesAll nodes).length := by
  cases nodes with
  | nil => rfl
  | cons node rest =>
      rw [outlineAll, Outline.sizeAll, size_outline, size_outlineAll, nodesAll, List.length_append]
end

namespace Tree

section Outlines

variable {tree : Tree}

mutual
/-- An arena that holds a numbered outline shows its nodes with their numbers in a row, by induction
on the outline.
-/
theorem Holds.numbers_eq {start : Nat} {parent : Option Nat} {outline : Outline} {found : Subtree}
    (holds : tree.Holds start (outline.flatten start parent))
    (shown : tree.subtree? start = some found)
    : found.nodes.map Subtree.id = List.range' start outline.size := by
  cases outline with
  | mk content children =>
      obtain ⟨node, here, number, _, numbers, each⟩ := subtree?_eq_some shown
      rw [Outline.flatten] at holds
      obtain rfl := Option.some.inj (here.symm.trans holds.head)
      have below := holds.tail.numbersAll_eq numbers each
      rw [Subtree.nodes_eq, ← Subtree.nodesAll_eq, List.map_cons, below, number, Outline.size,
        List.range'_succ]

theorem Holds.numbersAll_eq {start parent : Nat} {outlines : List Outline} {found : List Subtree}
    (holds : tree.Holds start (Outline.flattenAll start parent outlines))
    (numbers : found.map Subtree.id = Outline.starts start outlines)
    (shown : ∀ child ∈ found, tree.subtree? child.id = some child)
    : (Subtree.nodesAll found).map Subtree.id = List.range' start (Outline.sizeAll outlines) := by
  cases outlines with
  | nil =>
      rw [List.map_eq_nil_iff.mp numbers]
      rfl
  | cons outline outlines =>
      cases found with
      | nil => cases numbers
      | cons child found =>
          obtain ⟨number, numbers⟩ := List.cons.inj numbers
          obtain ⟨shownFirst, shown⟩ := List.forall_mem_cons.mp shown
          rw [Outline.flattenAll] at holds
          rw [number] at shownFirst
          have others := holds.right
          rw [Outline.length_flatten] at others
          rw [Subtree.nodesAll, List.map_append, holds.left.numbers_eq shownFirst,
            others.numbersAll_eq numbers shown, Outline.sizeAll, List.range'_append_1]
end

end Outlines

-----------------------------------------------------------------------------------------
-- Loaded trees
-----------------------------------------------------------------------------------------

/-- A loaded tree holds the numbered outline of its document. -/
theorem ofDocument_holds (document : Document)
    : (ofDocument document).Holds 0 (document.root.flatten 0 none) := by
  intro i node there
  rwa [Nat.zero_add, node?, ofDocument, List.getElem?_toArray]

/-- A loaded tree has as many nodes as its document. -/
theorem size_ofDocument (document : Document)
    : (ofDocument document).size = document.root.size := by
  rw [size, ofDocument, List.size_toArray, Outline.length_flatten]

/-- The nodes of a loaded tree say what those of the document say, in pre-order. -/
theorem contents_ofDocument (document : Document)
    : (ofDocument document).nodes.toList.map (·.content) = document.root.contents :=
  document.root.map_content_flatten 0 none

/-- The numbers of a loaded tree are its nodes in pre-order. -/
theorem preorder_ofDocument (document : Document)
    : (ofDocument document).preorder = List.range document.root.size := by
  have coherent := ofDocument_coherent document
  obtain ⟨found, shown⟩ := coherent.subtree?_exists (contains_iff.mp coherent.rootPresent)
  rw [coherent.preorder_eq shown, (ofDocument_holds document).numbers_eq shown,
    List.range_eq_range']

/-- A label leads to the first node in pre-order that carries it. -/
theorem labelled?_ofDocument (document : Document) (label : String)
    : (ofDocument document).labelled? label
      = document.root.contents.findIdx? (·.label == some label) := by
  rw [labelled?, ofDocument, List.findIdx?_toArray, ← document.root.map_content_flatten 0 none,
    List.findIdx?_map]
  rfl

-----------------------------------------------------------------------------------------
-- Trees that are loaded again
-----------------------------------------------------------------------------------------

/-- What is loaded from the document of a tree has a node for each attached one. -/
theorem Coherent.size_reloaded {tree : Tree} (coherent : tree.Coherent)
    : (ofDocument tree.toDocument).size = {id | tree.Attached id}.ncard := by
  obtain ⟨found, shown⟩ := coherent.subtree?_exists (contains_iff.mp coherent.rootPresent)
  have root : tree.toDocument.root = found.outline := by
    rw [toDocument, outline, shown, Option.map_some, Option.getD_some]
  rw [size_ofDocument, root, Subtree.size_outline, coherent.ncard_attached,
    coherent.preorder_eq shown, List.length_map]

/-- Loading is faithful. A loaded tree describes its document, with the language level written out;
its nodes are those of the document, numbered in pre-order; and a label leads to the first of them
that carries it, if any does. Whatever became of a loaded tree, what is loaded from its document
describes the same document and has a node for each one that is attached to the root.
-/
theorem ofDocument_faithful
    : (∀ document : Document,
        (ofDocument document).toDocument = document.withLevel
        ∧ (ofDocument document).size = document.root.size
        ∧ (ofDocument document).preorder = List.range document.root.size
        ∧ (∀ id, (ofDocument document).content? id = document.root.contents[id]?)
        ∧ ∀ label,
            (ofDocument document).labelled? label
            = document.root.contents.findIdx? (·.label == some label))
      ∧ ∀ tree : Tree, tree.Reachable →
          (ofDocument tree.toDocument).toDocument = tree.toDocument
          ∧ (ofDocument tree.toDocument).size = {id | tree.Attached id}.ncard := by
  refine ⟨fun document => ⟨toDocument_ofDocument document, size_ofDocument document,
    preorder_ofDocument document, fun id => ?_, labelled?_ofDocument document⟩, ?_⟩
  · rw [content?, node?, ← contents_ofDocument, List.getElem?_map, Array.getElem?_toList]
  · intro tree reachable
    exact ⟨toDocument_ofDocument tree.toDocument, reachable.coherent.size_reloaded⟩

end Tree

/-- A file with a class whose two methods carry the same label. -/
def sharedLabel : Document where
  root :=
    Outline.file.withChild <| (Outline.ofKind .namedClass).append
      [(Outline.ofKind .method).withLabel "here", (Outline.ofKind .method).withLabel "here"]

/-- The label leads to the first method. Once that one is detached, it stays in the arena, but only
the other three nodes are loaded again.
-/
theorem sharedLabel_reloaded
    : (Tree.ofDocument sharedLabel).labelled? "here" = some 2
      ∧ let pruned := (Tree.ofDocument sharedLabel).afterCall (.detach 2)
        pruned.size = 4
        ∧ {id | pruned.Attached id}.ncard = 3
        ∧ (Tree.ofDocument pruned.toDocument).toDocument = pruned.toDocument := by
  obtain ⟨_, _, _, _, labels⟩ := Tree.ofDocument_faithful.1 sharedLabel
  have reloaded := Tree.ofDocument_faithful.2 _ (.called (.loaded sharedLabel) (.detach 2))
  exact ⟨labels "here", by decide, reloaded.2.symm.trans (by decide), reloaded.1⟩

end TreeLint
