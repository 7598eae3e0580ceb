import TreeLint.Proofs.Document.RoundTrip
import TreeLint.Proofs.Tree.Numbering

/-! Trees are written and read back. Main result: a tree is read from its text if and only if its
document is not nested too deeply, and then it describes the same document; what is read once is
read again from its own text, and written the same.
-/

namespace TreeLint

-----------------------------------------------------------------------------------------
-- Numbered outlines
-----------------------------------------------------------------------------------------

namespace Tree

/-- The arena has the nodes at consecutive numbers. -/
def Holds (tree : Tree) (start : Nat) (nodes : List Node) : Prop :=
  ∀ i node, nodes[i]? = some node → tree.node? (start + i) = some node

section Blocks

variable {tree : Tree} {start : Nat}

theorem Holds.head {node : Node} {nodes : List Node} (holds : tree.Holds start (node :: nodes))
    : tree.node? start = some node :=
  holds 0 node rfl

theorem Holds.tail {node : Node} {nodes : List Node} (holds : tree.Holds start (node :: nodes))
    : tree.Holds (start + 1) nodes := by
  intro i other found
  rw [Nat.add_assoc, Nat.add_comm 1]
  exact holds (i + 1) other found

theorem Holds.left {first others : List Node} (holds : tree.Holds start (first ++ others))
    : tree.Holds start first := fun i node found =>
  holds i node (List.getElem?_append_left (List.getElem?_eq_some_iff.mp found).1 ▸ found)

theorem Holds.right {first others : List Node} (holds : tree.Holds start (first ++ others))
    : tree.Holds (start + first.length) others := by
  intro i node found
  rw [Nat.add_assoc]
  refine holds (first.length + i) node ?_
  rwa [List.getElem?_append_right (Nat.le_add_right _ _), Nat.add_sub_cancel_left]

end Blocks

section Outlines

variable {tree : Tree}

mutual
/-- An arena that holds a numbered outline shows it again, by induction on the outline. -/
theorem Holds.outline_eq {start : Nat} {parent : Option Nat} {outline : Outline} {found : Subtree}
    (holds : tree.Holds start (outline.flatten start parent))
    (shown : tree.subtree? start = some found)
    : found.outline = outline := by
  cases outline with
  | mk content children =>
      obtain ⟨node, here, _, sameContent, numbers, each⟩ := subtree?_eq_some shown
      rw [Outline.flatten] at holds
      obtain rfl := Option.some.inj (here.symm.trans holds.head)
      have below := holds.tail.outlines_eq numbers each
      cases found with
      | mk id other inner =>
          subst sameContent
          exact congrArg (Outline.mk _) below

theorem Holds.outlines_eq {start parent : Nat} {outlines : List Outline} {found : List Subtree}
    (holds : tree.Holds start (Outline.flattenAll start parent outlines))
    (numbers : found.map Subtree.id = Outline.starts start outlines)
    (shown : ∀ child ∈ found, tree.subtree? child.id = some child)
    : Subtree.outlineAll found = outlines := by
  cases outlines with
  | nil =>
      rw [List.map_eq_nil_iff.mp numbers]
      rfl
  | cons outline outlines =>
      cases found with
      | nil => cases numbers
      | cons child found =>
          obtain ⟨number, numbers⟩ := List.cons.inj numbers
          obtain ⟨shownFirst, shown⟩ := List.forall_mem_cons.mp shown
          rw [Outline.flattenAll] at holds
          rw [number] at shownFirst
          have others := holds.right
          rw [Outline.length_flatten] at others
          rw [Subtree.outlineAll, holds.left.outline_eq shownFirst,
            others.outlines_eq numbers shown]
end

end Outlines

/-- A loaded tree describes the document it was loaded from, with its language level. -/
theorem toDocument_ofDocument (document : Document)
    : (ofDocument document).toDocument = document.withLevel := by
  have coherent := ofDocument_coherent document
  obtain ⟨found, shown⟩ := coherent.toLinked.subtree?_exists (contains_iff.mp coherent.rootPresent)
  have holds : (ofDocument document).Holds 0 (document.root.flatten 0 none) := by
    intro i node there
    rwa [Nat.zero_add, node?, ofDocument, List.getElem?_toArray]
  have root : (ofDocument document).outline (ofDocument document).root = document.root := by
    rw [outline, shown, Option.map_some, Option.getD_some]
    exact holds.outline_eq shown
  rw [toDocument, root]
  simp [ofDocument, Document.withLevel]

/-- A tree is read from its own text if and only if its document is not nested too deeply. -/
theorem read?_render (tree : Tree)
    : read? tree.render
      = if tree.toDocument.toJson.depth ≤ nestingLimit then some (ofDocument tree.toDocument)
        else none := by
  rw [read?, render, Document.read?_render]
  split <;> rfl

/-- A tree that was loaded is read from its own text. -/
theorem read?_render_of_read? {text : String} {loaded : Tree} (isRead : read? text = some loaded)
    : read? loaded.render = some (ofDocument loaded.toDocument) := by
  obtain ⟨document, found, rfl⟩ := Option.map_eq_some_iff.mp isRead
  have shallow := Document.depth_of_read? found
  rw [read?_render, toDocument_ofDocument]
  exact if_pos (document.depth_withLevel_le shallow)

/-- A tree is read from its own text if and only if its document is not nested too deeply, and the
tree that is read describes the same document. Whatever text a tree is read from, its own text is
read again, and what is read then is written the same.
-/
theorem render_roundTrip
    : (∀ tree : Tree,
        ((∃ again, read? tree.render = some again) ↔ tree.toDocument.toJson.depth ≤ 127)
        ∧ ∀ again ∈ read? tree.render, again.toDocument = tree.toDocument)
      ∧ ∀ text, ∀ loaded ∈ read? text,
          ∃ again ∈ read? loaded.render, again.render = loaded.render := by
  have same (tree : Tree) : (ofDocument tree.toDocument).toDocument = tree.toDocument :=
    toDocument_ofDocument tree.toDocument
  refine ⟨fun tree => ⟨?_, fun again isRead => ?_⟩, fun text loaded isRead => ?_⟩
  · rw [read?_render]
    split
    · next shallow => exact iff_of_true ⟨_, rfl⟩ shallow
    · next deep => exact iff_of_false nofun deep
  · rw [read?_render] at isRead
    split at isRead
    · cases isRead
      exact same tree
    · cases isRead
  · exact ⟨_, read?_render_of_read? isRead, congrArg Document.render (same loaded)⟩

end Tree

-----------------------------------------------------------------------------------------
-- Strange and deep documents
-----------------------------------------------------------------------------------------

/-- A literal with everything that is hard to write: control characters, quotes, characters of two
units, and the greatest numbers.
-/
def strangeLiteral : Document where
  source := some "\"\\\x00\x1f\x7f\uffff😀"
  readOnly := true
  root := .mk
    { kind := .literal
      label := some ""
      modifiers := [.default, .default]
      span := some { offset := 18446744073709551615, length := 0 }
      facts :=
        { constant := some Int64.minValue
          resolvesTo := some (.external
            { kind := .fieldSymbol, qualifiedName := "\n", modifiers := [.static] }) } }
    []

/-- So many blocks, each but the first inside another one. -/
def nestedBlocks : Nat → Outline
  | 0 => .mk { kind := .blockStatement } []
  | n + 1 => .mk { kind := .blockStatement } [nestedBlocks n]

theorem depth_nestedBlocks (n : Nat) : (nestedBlocks n).toJson.depth = 2 * n + 1 := by
  induction n with
  | zero => rfl
  | succ n ih =>
      have deeper : (nestedBlocks (n + 1)).toJson.depth = (nestedBlocks n).toJson.depth + 2 := by
        simp [nestedBlocks, Outline.toJson, Outline.toJsonAll, Content.members, Json.memberList,
          Json.ofMembers, Json.depth, Json.depthMembers, Json.depthItems, Json.member?]
      omega

/-- A document of nested blocks is two containers deep for each block. -/
theorem depth_document_nestedBlocks (n : Nat)
    : ({ root := nestedBlocks n } : Document).withLevel.toJson.depth = 2 * n + 2 := by
  have around : ({ root := nestedBlocks n } : Document).withLevel.toJson.depth
      = (nestedBlocks n).toJson.depth + 1 := by
    simp [Document.withLevel, Document.toJson, Json.ofMembers, Json.depth, Json.depthMembers,
      Json.member?, Json.memberIf]
  rw [around, depth_nestedBlocks]

theorem strangeLiteral_readBack
    : (∃ again ∈ Tree.read? (Tree.ofDocument strangeLiteral).render,
        again.toDocument = strangeLiteral.withLevel)
      ∧ (∃ again, Tree.read? (Tree.ofDocument { root := nestedBlocks 62 }).render = some again)
      ∧ ¬∃ again, Tree.read? (Tree.ofDocument { root := nestedBlocks 63 }).render = some again := by
  have written := Tree.render_roundTrip.1
  refine ⟨?_, ?_, ?_⟩
  · obtain ⟨readable, same⟩ := written (Tree.ofDocument strangeLiteral)
    rw [Tree.toDocument_ofDocument] at readable same
    obtain ⟨again, isRead⟩ := readable.mpr (by decide)
    exact ⟨again, isRead, same again isRead⟩
  · rw [(written _).1, Tree.toDocument_ofDocument, depth_document_nestedBlocks]
    decide
  · rw [(written _).1, Tree.toDocument_ofDocument, depth_document_nestedBlocks]
    decide

end TreeLint
