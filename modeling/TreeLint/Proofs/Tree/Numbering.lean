import TreeLint.Proofs.Tree.Links
import TreeLint.Tree.Edit

/-! Numbering an outline gives linked nodes: below a parent that is numbered before them, or below
none. An arena stays linked when such nodes are put behind those it has, so that loaded trees are
coherent.
-/

namespace TreeLint

open Relation

-----------------------------------------------------------------------------------------
-- Blocks of consecutively numbered nodes
-----------------------------------------------------------------------------------------

/-- Nodes that are numbered from `start` on and linked among themselves. The topmost ones hang
below `parent`, every other one below a node of the block before it.
-/
structure NodeBlock (start : Nat) (parent : Option Nat) (tops : List Nat)
    (nodes : List Node)
    : Prop where
  topsPresent : ∀ id ∈ tops, start ≤ id ∧ id < start + nodes.length
  topsUnique : tops.Nodup
  mem_tops_iff
    : ∀ {i : Nat} {node : Node}, nodes[i]? = some node
        → (start + i ∈ tops ↔ node.parent = parent)
  upward
    : ∀ {i : Nat} {node : Node}, nodes[i]? = some node
        → node.parent = parent ∨ ∃ j < i, node.parent = some (start + j)
  childrenPresent
    : ∀ {i : Nat} {node : Node}, nodes[i]? = some node
        → ∀ child : Nat, child ∈ node.children → start ≤ child ∧ child < start + nodes.length
  childrenUnique : ∀ {i : Nat} {node : Node}, nodes[i]? = some node → node.children.Nodup
  agree
    : ∀ {i j : Nat} {upper lower : Node}, nodes[i]? = some upper → nodes[j]? = some lower
        → (start + j ∈ upper.children ↔ lower.parent = some (start + i))

namespace NodeBlock

theorem nil (start : Nat) (parent : Option Nat) : NodeBlock start parent [] [] where
  topsPresent := by simp
  topsUnique := List.nodup_nil
  mem_tops_iff := by simp
  upward := by simp
  childrenPresent := by simp
  childrenUnique := by simp
  agree := by simp

/-- A node before a block becomes the parent of the topmost nodes of the block. -/
theorem cons {start : Nat} {parent : Option Nat} {tops : List Nat} {nodes : List Node}
    (block : NodeBlock (start + 1) (some start) tops nodes) (outside : ∀ id ∈ parent, id < start)
    (content : Content)
    : NodeBlock start parent [start] ({ content, parent, children := tops } :: nodes) := by
  have shift (i : Nat) : start + (i + 1) = start + 1 + i := by omega
  have inside {i : Nat} {node : Node} (found : nodes[i]? = some node)
      : node.parent ≠ parent ∧ ∃ j < i + 1, node.parent = some (start + j) := by
    have later (j : Nat) : some (start + j) ≠ parent := by
      intro same
      have early := outside (start + j) same.symm
      omega
    rcases block.upward found with top | ⟨j, before, up⟩
    · exact ⟨top ▸ later 0, 0, by omega, top⟩
    · rw [← shift j] at up
      exact ⟨up ▸ later (j + 1), j + 1, by omega, up⟩
  constructor
  · simp
  · simp
  · intro i node found
    cases i with
    | zero =>
        simp only [List.getElem?_cons_zero, Option.some.injEq] at found
        simp [← found]
    | succ i =>
        have other : start + (i + 1) ∉ [start] := by simp
        exact iff_of_false other (inside found).1
  · intro i node found
    cases i with
    | zero =>
        simp only [List.getElem?_cons_zero, Option.some.injEq] at found
        exact Or.inl (congrArg Node.parent found.symm)
    | succ i => exact Or.inr (inside found).2
  · intro i node found child member
    simp only [List.length_cons]
    cases i with
    | zero =>
        simp only [List.getElem?_cons_zero, Option.some.injEq] at found
        subst found
        have bounds := block.topsPresent child member
        omega
    | succ i =>
        have bounds := block.childrenPresent found child member
        omega
  · intro i node found
    cases i with
    | zero =>
        simp only [List.getElem?_cons_zero, Option.some.injEq] at found
        subst found
        exact block.topsUnique
    | succ i => exact block.childrenUnique found
  · intro i j upper lower foundUpper foundLower
    cases i with
    | zero =>
        simp only [List.getElem?_cons_zero, Option.some.injEq] at foundUpper
        subst foundUpper
        cases j with
        | zero =>
            simp only [List.getElem?_cons_zero, Option.some.injEq] at foundLower
            subst foundLower
            refine iff_of_false ?_ ?_
            · intro member
              have bounds := block.topsPresent _ member
              omega
            · intro same
              have early := outside _ same
              omega
        | succ j =>
            rw [shift]
            exact block.mem_tops_iff foundLower
    | succ i =>
        cases j with
        | zero =>
            simp only [List.getElem?_cons_zero, Option.some.injEq] at foundLower
            subst foundLower
            refine iff_of_false ?_ ?_
            · intro member
              have bounds := block.childrenPresent foundUpper _ member
              omega
            · intro same
              have early := outside _ same
              omega
        | succ j =>
            rw [shift i, shift j]
            exact block.agree foundUpper foundLower

/-- Two blocks numbered one after the other below the same parent are one block. -/
theorem append {start : Nat} {parent : Option Nat} {firstTops tops : List Nat}
    {first second : List Node}
    (left : NodeBlock start parent firstTops first)
    (right : NodeBlock (start + first.length) parent tops second)
    (outside : ∀ id ∈ parent, id < start)
    : NodeBlock start parent (firstTops ++ tops) (first ++ second) := by
  -- A node is in the first block, or in the second under an index that is smaller by its length.
  have split {i : Nat} {node : Node} (found : (first ++ second)[i]? = some node)
      : (i < first.length ∧ first[i]? = some node)
        ∨ ∃ k, i = first.length + k ∧ second[k]? = some node := by
    by_cases early : i < first.length
    · exact Or.inl ⟨early, by rwa [List.getElem?_append_left early] at found⟩
    · have late : first.length ≤ i := Nat.le_of_not_lt early
      rw [List.getElem?_append_right late] at found
      exact Or.inr ⟨i - first.length, by omega, found⟩
  have shift (k : Nat) : start + (first.length + k) = start + first.length + k := by omega
  constructor
  · intro id member
    rw [List.length_append]
    rcases List.mem_append.mp member with member | member
    · have bounds := left.topsPresent id member
      omega
    · have bounds := right.topsPresent id member
      omega
  · refine List.nodup_append.mpr ⟨left.topsUnique, right.topsUnique, ?_⟩
    rintro id inFirst _ inSecond rfl
    have early := left.topsPresent id inFirst
    have late := right.topsPresent id inSecond
    omega
  · intro i node found
    rw [List.mem_append]
    rcases split found with ⟨_, found⟩ | ⟨k, rfl, there⟩
    · rw [← left.mem_tops_iff found]
      refine or_iff_left fun member => ?_
      have bounds := right.topsPresent _ member
      omega
    · rw [shift, ← right.mem_tops_iff there]
      refine or_iff_right fun member => ?_
      have bounds := left.topsPresent _ member
      omega
  · intro i node found
    rcases split found with ⟨_, found⟩ | ⟨k, rfl, there⟩
    · exact left.upward found
    · rcases right.upward there with top | ⟨j, before, up⟩
      · exact Or.inl top
      · exact Or.inr ⟨first.length + j, by omega, by rw [up, shift]⟩
  · intro i node found child member
    rw [List.length_append]
    rcases split found with ⟨_, found⟩ | ⟨k, rfl, there⟩
    · have bounds := left.childrenPresent found child member
      omega
    · have bounds := right.childrenPresent there child member
      omega
  · intro i node found
    rcases split found with ⟨_, found⟩ | ⟨k, rfl, there⟩
    · exact left.childrenUnique found
    · exact right.childrenUnique there
  · intro i j upper lower foundUpper foundLower
    rcases split foundUpper with ⟨earlyUpper, foundUpper⟩ | ⟨k, rfl, upperThere⟩
    · rcases split foundLower with ⟨_, foundLower⟩ | ⟨m, rfl, lowerThere⟩
      · exact left.agree foundUpper foundLower
      · refine iff_of_false ?_ ?_
        · intro member
          have bounds := left.childrenPresent foundUpper _ member
          omega
        · intro up
          rcases right.upward lowerThere with top | ⟨n, _, other⟩
          · have early := outside _ (top.symm.trans up)
            omega
          · have same := Option.some.inj (other.symm.trans up)
            omega
    · rcases split foundLower with ⟨earlyLower, foundLower⟩ | ⟨m, rfl, lowerThere⟩
      · refine iff_of_false ?_ ?_
        · intro member
          have bounds := right.childrenPresent upperThere _ member
          omega
        · intro up
          rcases left.upward foundLower with top | ⟨n, before, other⟩
          · have early := outside _ (top.symm.trans up)
            omega
          · have same := Option.some.inj (other.symm.trans up)
            omega
      · rw [shift, shift]
        exact right.agree upperThere lowerThere

end NodeBlock

-----------------------------------------------------------------------------------------
-- Numbered outlines
-----------------------------------------------------------------------------------------

namespace Outline

mutual
/-- Numbering gives one node for each of an outline. -/
theorem length_flatten (start : Nat) (parent : Option Nat) (outline : Outline)
    : (outline.flatten start parent).length = outline.size := by
  cases outline with
  | mk content children =>
      rw [flatten, List.length_cons, length_flattenAll, size]

theorem length_flattenAll (start : Nat) (parent : Nat) (outlines : List Outline)
    : (flattenAll start parent outlines).length = sizeAll outlines := by
  cases outlines with
  | nil => rfl
  | cons outline rest =>
      rw [flattenAll, List.length_append, length_flatten, length_flattenAll, sizeAll]
end

mutual
/-- A numbered outline is a block with its topmost node as the only top. -/
theorem flatten_block (start : Nat) (parent : Option Nat) (outline : Outline)
    (outside : ∀ id ∈ parent, id < start)
    : NodeBlock start parent [start] (outline.flatten start parent) := by
  cases outline with
  | mk content children =>
      exact (flattenAll_block (start + 1) start children (Nat.lt_succ_self start)).cons
        outside content

theorem flattenAll_block (start parent : Nat) (outlines : List Outline) (below : parent < start)
    : NodeBlock start (some parent) (starts start outlines)
        (flattenAll start parent outlines) := by
  have outside : ∀ id ∈ some parent, id < start := by simpa using below
  cases outlines with
  | nil => exact .nil start (some parent)
  | cons outline rest =>
      have first := flatten_block start (some parent) outline outside
      have others := flattenAll_block (start + outline.size) parent rest (by omega)
      rw [← length_flatten start (some parent) outline] at others
      have together := first.append others outside
      rwa [length_flatten] at together
end

end Outline

-----------------------------------------------------------------------------------------
-- Arenas with an outline behind their nodes
-----------------------------------------------------------------------------------------

namespace Tree

/-- The tree with the nodes of an outline behind those it has, attached to nothing. -/
def grow (tree : Tree) (outline : Outline) : Tree :=
  { tree with nodes := tree.nodes ++ (outline.flatten tree.size none).toArray }

@[simp] theorem grow_root (tree : Tree) (outline : Outline)
    : (tree.grow outline).root = tree.root := rfl

theorem grow_size (tree : Tree) (outline : Outline)
    : (tree.grow outline).size = tree.size + outline.size := by
  simp [grow, size, Outline.length_flatten]

/-- The nodes that were there stay what they were. -/
theorem grow_node?_of_lt {tree : Tree} {outline : Outline} {id : NodeId} (old : id < tree.size)
    : (tree.grow outline).node? id = tree.node? id := by
  simp only [grow, node?]
  exact Array.getElem?_append_left old

/-- The nodes behind them are those of the numbered outline. -/
theorem grow_node?_add (tree : Tree) (outline : Outline) (i : Nat)
    : (tree.grow outline).node? (tree.size + i) = (outline.flatten tree.size none)[i]? := by
  simp only [grow, node?, size]
  rw [Array.getElem?_append_right (Nat.le_add_right _ _), Nat.add_sub_cancel_left,
    List.getElem?_toArray]

/-- A number from the size of the arena on is the size and something more. -/
theorem exists_add_of_not_lt {tree : Tree} {id : Nat} (new : ¬id < tree.size)
    : ∃ i, id = tree.size + i :=
  ⟨id - tree.size, by omega⟩

theorem grow_parent?_of_lt {tree : Tree} {outline : Outline} {id : NodeId} (old : id < tree.size)
    : (tree.grow outline).parent? id = tree.parent? id := by
  rw [parent?, parent?, grow_node?_of_lt old]

theorem grow_childIds_of_lt {tree : Tree} {outline : Outline} {id : NodeId}
    (old : id < tree.size)
    : (tree.grow outline).childIds id = tree.childIds id := by
  rw [childIds, childIds, grow_node?_of_lt old]

/-- The topmost of the new nodes has no parent. -/
theorem grow_parent?_size (tree : Tree) (outline : Outline)
    : (tree.grow outline).parent? tree.size = none := by
  have top := grow_node?_add tree outline 0
  cases outline
  rw [Nat.add_zero, Outline.flatten, List.getElem?_cons_zero] at top
  rw [parent?, top, Option.bind_some]

/-- A new node hangs below another new node with a smaller number, if below any. -/
theorem grow_parent?_new {tree : Tree} {outline : Outline} {id parent : Nat}
    (new : tree.size ≤ id) (up : (tree.grow outline).parent? id = some parent)
    : tree.size ≤ parent ∧ parent < id := by
  obtain ⟨i, rfl⟩ := exists_add_of_not_lt (Nat.not_lt_of_le new)
  rw [parent?, grow_node?_add] at up
  cases found : (outline.flatten tree.size none)[i]? with
  | none => simp [found] at up
  | some node =>
      rw [found, Option.bind_some] at up
      have block := outline.flatten_block tree.size none (by simp)
      rcases block.upward found with top | ⟨j, before, other⟩
      · exact absurd (top.symm.trans up) (by simp)
      · have same := Option.some.inj (other.symm.trans up)
        omega

private theorem grow_agree_new {tree : Tree} {outline : Outline} (i j : Nat)
    : tree.size + j ∈ (tree.grow outline).childIds (tree.size + i)
      ↔ (tree.grow outline).parent? (tree.size + j) = some (tree.size + i) := by
  have block := outline.flatten_block tree.size none (by simp)
  rw [childIds, parent?, grow_node?_add, grow_node?_add]
  cases upper : (outline.flatten tree.size none)[i]? with
  | none =>
      refine iff_of_false (by simp) fun up => ?_
      cases lower : (outline.flatten tree.size none)[j]? with
      | none => simp [lower] at up
      | some node =>
          rw [lower, Option.bind_some] at up
          rcases block.upward lower with top | ⟨k, before, other⟩
          · exact absurd (top.symm.trans up) (by simp)
          · have same := Option.some.inj (other.symm.trans up)
            have present := (List.getElem?_eq_some_iff.mp lower).1
            have missing := List.getElem?_eq_none_iff.mp upper
            omega
  | some node =>
      cases lower : (outline.flatten tree.size none)[j]? with
      | none =>
          refine iff_of_false (fun member => ?_) (by simp)
          have bounds := block.childrenPresent upper _ member
          have missing := List.getElem?_eq_none_iff.mp lower
          omega
      | some child => exact block.agree upper lower

/-- An arena stays linked when it grows. -/
theorem Linked.grow {tree : Tree} (linked : tree.Linked) (outline : Outline)
    : (tree.grow outline).Linked := by
  have block := outline.flatten_block tree.size none (by simp)
  refine ⟨?_, ?_, ?_⟩
  · intro parent child
    by_cases oldParent : parent < tree.size
    · by_cases oldChild : child < tree.size
      · rw [grow_childIds_of_lt oldParent, grow_parent?_of_lt oldChild]
        exact linked.agree
      · refine iff_of_false ?_ ?_
        · rw [grow_childIds_of_lt oldParent]
          exact fun member => oldChild (linked.child_lt member)
        · intro up
          have bounds := grow_parent?_new (Nat.le_of_not_lt oldChild) up
          exact Nat.not_le_of_lt oldParent bounds.1
    · obtain ⟨i, rfl⟩ := exists_add_of_not_lt oldParent
      by_cases oldChild : child < tree.size
      · refine iff_of_false ?_ ?_
        · intro member
          rw [childIds, grow_node?_add] at member
          cases upper : (outline.flatten tree.size none)[i]? with
          | none => simp [upper] at member
          | some node =>
              rw [upper, Option.map_some, Option.getD_some] at member
              have bounds := block.childrenPresent upper _ member
              exact Nat.not_le_of_lt oldChild bounds.1
        · rw [grow_parent?_of_lt oldChild]
          exact fun up => oldParent (linked.parent_lt up)
      · obtain ⟨j, rfl⟩ := exists_add_of_not_lt oldChild
        exact grow_agree_new i j
  · intro id
    by_cases old : id < tree.size
    · rw [grow_childIds_of_lt old]
      exact linked.unique id
    · obtain ⟨i, rfl⟩ := exists_add_of_not_lt old
      rw [childIds, grow_node?_add]
      cases upper : (outline.flatten tree.size none)[i]? with
      | none => simp
      | some node => exact block.childrenUnique upper
  · intro id cycle
    by_cases old : id < tree.size
    · refine linked.acyclic id (cycle.transfer (grow_parent?_of_lt old) fun upper above => ?_)
      exact grow_parent?_of_lt (linked.above_lt above).1
    · -- Parents of new nodes have smaller numbers, so a chain upward cannot come back.
      have descending {upper lower : Nat} (above : (tree.grow outline).Above upper lower)
          : tree.size ≤ lower → upper < lower := by
        induction above with
        | single up => exact fun new => (grow_parent?_new new up).2
        | tail _ up ih =>
            intro new
            have bounds := grow_parent?_new new up
            exact Nat.lt_trans (ih bounds.1) bounds.2
      exact Nat.lt_irrefl id (descending cycle (Nat.le_of_not_lt old))

theorem Coherent.grow {tree : Tree} (coherent : tree.Coherent) (outline : Outline)
    : (tree.grow outline).Coherent where
  toLinked := coherent.toLinked.grow outline
  rootPresent := by
    have present := contains_iff.mp coherent.rootPresent
    rw [contains_iff, grow_root, grow_size]
    exact Nat.lt_of_lt_of_le present (Nat.le_add_right _ _)
  rootTop := by
    rw [grow_root, grow_parent?_of_lt (contains_iff.mp coherent.rootPresent)]
    exact coherent.rootTop

theorem linked_of_empty {tree : Tree} (empty : tree.nodes = #[]) : tree.Linked := by
  have missing (id : NodeId) : tree.node? id = none := by simp [node?, empty]
  refine ⟨?_, ?_, ?_⟩
  · intro parent child
    simp [childIds, parent?, missing]
  · intro id
    simp [childIds, missing]
  · intro id cycle
    obtain ⟨parent, up, _⟩ := above_iff.mp cycle
    simp [parent?, missing] at up

/-- A loaded tree is coherent: loading lets an empty arena grow by the outline of the document. -/
theorem ofDocument_coherent (document : Document) : (ofDocument document).Coherent := by
  have loaded
      : ofDocument document = { ofDocument document with nodes := #[] }.grow document.root := by
    simp [ofDocument, Tree.grow, size]
  refine ⟨?_, ?_, ?_⟩
  · rw [loaded]
    exact (linked_of_empty rfl).grow document.root
  · rw [loaded, contains_iff, grow_size]
    cases document.root
    simp [ofDocument, size, Outline.size]
  · rw [loaded]
    exact grow_parent?_size _ document.root

end Tree
end TreeLint
