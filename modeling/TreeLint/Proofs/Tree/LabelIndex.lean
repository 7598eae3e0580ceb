import TreeLint.Proofs.Fix.Labels
import TreeLint.Proofs.Fix.Atomicity

/-! Labels that are kept in an index. The index is filled as nodes enter the arena, and a label that
is there keeps its node; nothing else ever changes it. Main result: whatever edits and fixes were
made, it leads to the same nodes as a search for the first node that carries the label.
-/

namespace TreeLint

-----------------------------------------------------------------------------------------
-- Filling an index
-----------------------------------------------------------------------------------------

/-- Labels with the nodes that they lead to. -/
abbrev LabelIndex : Type :=
  List (String × NodeId)

namespace LabelIndex

/-- Enters the label of a node, if it has one. A label that is there keeps its node. -/
def enter (index : LabelIndex) (id : NodeId) : Option String → LabelIndex
  | none => index
  | some label => if (index.lookup label).isSome then index else (label, id) :: index

/-- Enters the labels of nodes that are numbered one after the other. -/
def enterAll (index : LabelIndex) : NodeId → List (Option String) → LabelIndex
  | _, [] => index
  | start, first :: rest => (index.enter start first).enterAll (start + 1) rest

variable (index : LabelIndex) (label : String)

theorem lookup_enter (id : NodeId) (own : Option String)
    : (index.enter id own).lookup label
      = (index.lookup label).or (if own = some label then some id else none) := by
  cases own with
  | none => simp [enter]
  | some entered =>
      by_cases same : entered = label
      · subst same
        cases known : index.lookup entered <;> simp [enter, known]
      · have other : (label == entered) = false := beq_eq_false_iff_ne.mpr (Ne.symm same)
        rw [enter]
        split
        · simp [same]
        · simp [List.lookup_cons, other, same]

/-- A label that is not there leads to the first of the nodes that carries it, by induction on the
nodes.
-/
theorem lookup_enterAll (start : NodeId) (labels : List (Option String))
    : (index.enterAll start labels).lookup label
      = (index.lookup label).or ((labels.findIdx? (· == some label)).map (start + ·)) := by
  induction labels generalizing index start with
  | nil => simp [enterAll]
  | cons first rest ih =>
      rw [enterAll, ih, lookup_enter, Option.or_assoc, List.findIdx?_cons]
      by_cases same : first = some label
      · simp [same]
      · have shifted (place : Option Nat)
            : (place.map (· + 1)).map (start + ·) = place.map (start + 1 + ·) := by
          cases place with
          | none => rfl
          | some place => exact congrArg some (Nat.add_right_comm start place 1)
        rw [if_neg same, Option.none_or, if_neg (by simpa using same), shifted]

end LabelIndex

variable {tree after : Tree} {index : LabelIndex}

namespace Tree

-----------------------------------------------------------------------------------------
-- Labels of the arena
-----------------------------------------------------------------------------------------

/-- The labels of all nodes, in the order of their numbers. -/
def labels (tree : Tree) : List (Option String) :=
  tree.nodes.toList.map (·.content.label)

theorem length_labels (tree : Tree) : tree.labels.length = tree.size := by
  rw [labels, List.length_map, Array.length_toList, size]

theorem labels_getElem? (tree : Tree) (id : NodeId)
    : tree.labels[id]? = (tree.content? id).map (·.label) := by
  rw [labels, List.getElem?_map, Array.getElem?_toList, content?, node?, Option.map_map]
  rfl

theorem labelled?_eq (tree : Tree) (label : String)
    : tree.labelled? label = tree.labels.findIdx? (· == some label) := by
  rw [labelled?, labels, List.findIdx?_map, ← List.findIdx?_toArray, Array.toArray_toList]
  rfl

/-- Nodes that were there carry the labels that they carried; others may have entered. -/
def KeepsLabels (tree after : Tree) : Prop :=
  tree.labels <+: after.labels

theorem KeepsLabels.of_same (same : tree.SameLabels after) (grows : tree.size ≤ after.size)
    : tree.KeepsLabels after := by
  refine List.prefix_iff_getElem?.mpr fun id inside => ?_
  have old : id < tree.size := tree.length_labels ▸ inside
  obtain ⟨before, there⟩ := content?_exists old
  obtain ⟨now, here⟩ := content?_exists (Nat.lt_of_lt_of_le old grows)
  have carries := same id
  rw [labelAt?, labelAt?, here, there, Option.bind_some, Option.bind_some] at carries
  rw [labels_getElem?, here, Option.map_some, carries, ← List.getElem?_eq_getElem inside,
    labels_getElem?, there, Option.map_some]

theorem KeepsLabels.refl (tree : Tree) : tree.KeepsLabels tree :=
  List.prefix_rfl

-----------------------------------------------------------------------------------------
-- Edits and fixes
-----------------------------------------------------------------------------------------

theorem updateNode_keepsLabels (tree : Tree) (id : NodeId) {f : Node → Node}
    (keeps : ∀ node, (f node).content.label = node.content.label)
    : tree.KeepsLabels (tree.updateNode id f) := by
  refine .of_same (fun other => ?_) (Nat.le_of_eq (updateNode_size tree id f).symm)
  rw [labelAt?, labelAt?, content?, content?, updateNode_node?]
  split
  · cases tree.node? other with
    | none => rfl
    | some node => exact keeps node
  · rfl

theorem grow_keepsLabels (tree : Tree) (outline : Outline)
    : tree.KeepsLabels (tree.grow outline) := by
  rw [KeepsLabels, labels, labels, grow, Array.toList_append, List.map_append]
  exact List.prefix_append _ _

end Tree

/-- A call that fails changes no label, and one that succeeds none of the nodes that were there. -/
theorem EditCall.run_keepsLabels (call : EditCall) (tree : Tree)
    : tree.KeepsLabels (tree.afterCall call) := by
  rw [Tree.afterCall]
  cases call with
  | removeModifier id modifier =>
      rw [run, Edit.removeModifier, Edit.reword_apply]
      split
      · exact .refl tree
      · exact tree.updateNode_keepsLabels id fun _ => rfl
  | replaceWithText id text =>
      rw [run, Edit.replaceWithText_apply]
      split
      · exact .refl tree
      · exact .of_same (tree.fragment_sameLabels id text) (by rw [Tree.fragment_size])
  | detach id =>
      rw [run, Edit.detach_apply]
      split
      · exact .refl tree
      · exact .refl tree
      · exact .of_same (tree.cut_sameLabels _ id) (by rw [Tree.cut_size])
  | addOutline outline =>
      rw [run, Edit.apply_bind, Edit.addOutline_apply]
      by_cases writable : tree.writable
      · rw [if_pos writable]
        exact tree.grow_keepsLabels outline
      · rw [if_neg writable]
        exact .refl tree
  | insertChild parent index child =>
      rw [run, Edit.insertChild_apply]
      split
      · exact .refl tree
      · exact .refl tree
      · split
        · exact .refl tree
        · split
          · exact .refl tree
          · exact .of_same (tree.hang_sameLabels parent index child) (by rw [Tree.hang_size])
  | setRole id role =>
      rw [run, Edit.setRole_apply]
      split
      · exact .refl tree
      · exact tree.updateNode_keepsLabels id fun _ => rfl
  | setName id name =>
      rw [run, Edit.setName, Edit.reword_apply]
      split
      · exact .refl tree
      · exact tree.updateNode_keepsLabels id fun _ => rfl
  | setWritable writable => exact .refl tree

/-- A fix that fails changes nothing, and one that succeeds no label of a node that was there. -/
theorem Fix.applyAt_keepsLabels {tree : Tree} (coherent : tree.Coherent) (fix : Fix)
    (anchor : NodeId)
    : tree.KeepsLabels ((fix.applyAt anchor).apply tree).2 := by
  cases outcome : (fix.applyAt anchor).apply tree with
  | mk result after =>
      cases result with
      | error error =>
          obtain rfl := applyAt_allOrNothing coherent fix anchor error after outcome
          exact .refl after
      | ok value =>
          exact .of_same (applyAt_sameLabels coherent outcome)
            (applyAt_pruned coherent outcome).grows

-----------------------------------------------------------------------------------------
-- Indices of trees that occur
-----------------------------------------------------------------------------------------

/-- The index once the labels of the nodes are entered that are new in the second tree. -/
def LabelIndex.follow (index : LabelIndex) (tree after : Tree) : LabelIndex :=
  index.enterAll tree.size (after.labels.drop tree.size)

namespace Tree

/-- A tree that occurs with the index that is kept beside it. -/
inductive Indexed : Tree → LabelIndex → Prop where
  | loaded (document : Document)
    : Indexed (ofDocument document) (LabelIndex.enterAll [] 0 (ofDocument document).labels)
  | called {tree : Tree} {index : LabelIndex} (before : Indexed tree index) (call : EditCall)
    : Indexed (tree.afterCall call) (index.follow tree (tree.afterCall call))
  | fixed {tree : Tree} {index : LabelIndex} (before : Indexed tree index) (fix : Fix)
    (anchor : NodeId)
    : Indexed ((fix.applyAt anchor).apply tree).2
        (index.follow tree ((fix.applyAt anchor).apply tree).2)

theorem Indexed.reachable (indexed : tree.Indexed index) : tree.Reachable := by
  induction indexed with
  | loaded document => exact .loaded document
  | called _ call ih => exact .called ih call
  | fixed _ fix anchor ih => exact .fixed ih fix anchor

/-- An index that leads where a search leads still does so when it follows what keeps labels. -/
theorem KeepsLabels.lookup_follow (keeps : tree.KeepsLabels after)
    (agrees : ∀ label, index.lookup label = tree.labelled? label) (label : String)
    : (index.follow tree after).lookup label = after.labelled? label := by
  obtain ⟨entered, labels⟩ := keeps
  have new : after.labels.drop tree.size = entered := by
    rw [← labels, ← tree.length_labels, List.drop_left]
  rw [LabelIndex.follow, LabelIndex.lookup_enterAll, agrees, new, labelled?_eq, labelled?_eq,
    ← labels, List.findIdx?_append, tree.length_labels]
  simp only [Nat.add_comm]

/-- A label that is looked up in the index leads to the first node of the arena that carries it, by
induction on how the tree came about.
-/
theorem Indexed.lookup_eq (indexed : tree.Indexed index) (label : String)
    : index.lookup label = tree.labelled? label := by
  induction indexed generalizing label with
  | loaded document =>
      rw [LabelIndex.lookup_enterAll, labelled?_eq, List.lookup_nil, Option.none_or]
      simp
  | called _ call ih => exact (call.run_keepsLabels _).lookup_follow ih label
  | fixed before fix anchor ih =>
      exact (fix.applyAt_keepsLabels before.reachable.coherent anchor).lookup_follow ih label

/-- Every tree that occurs has an index, and whoever looks a label up in it finds the node that a
search finds.
-/
theorem Reachable.labelled?_indexed (reachable : tree.Reachable)
    : ∃ index, tree.Indexed index ∧ ∀ label, tree.labelled? label = index.lookup label := by
  suffices indexed : ∃ index, tree.Indexed index by
    obtain ⟨index, indexed⟩ := indexed
    exact ⟨index, indexed, fun label => (indexed.lookup_eq label).symm⟩
  induction reachable with
  | loaded document => exact ⟨_, .loaded document⟩
  | called _ call ih =>
      obtain ⟨index, indexed⟩ := ih
      exact ⟨_, indexed.called call⟩
  | fixed _ fix anchor ih =>
      obtain ⟨index, indexed⟩ := ih
      exact ⟨_, indexed.fixed fix anchor⟩

end Tree

end TreeLint
