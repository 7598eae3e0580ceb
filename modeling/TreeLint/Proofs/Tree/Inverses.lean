import Mathlib.Data.List.Nodup
import TreeLint.Proofs.Fix.Reachability
import TreeLint.Proofs.Tree.Agreement
import TreeLint.Proofs.Tree.Outcomes

/-! Cutting a node off and hanging it below another one undo each other. A child stands once among
the children of its parent, so taking it out and putting it back where it was gives the same list,
and so does putting in what is no child and taking it out. Main result: in both orders, the two
edits succeed and give back the very same tree.
-/

namespace TreeLint

open Relation

-----------------------------------------------------------------------------------------
-- Items taken out of lists and put back
-----------------------------------------------------------------------------------------

/-- An item that stands once in a list is put back where it was taken out. -/
theorem insertIdx_filter_ne {ids : List NodeId} (unique : ids.Nodup) {index : Nat} {id : NodeId}
    (place : ids.idxOf? id = some index)
    : (ids.filter (· != id)).insertIdx (min index (ids.filter (· != id)).length) id = ids := by
  obtain ⟨inside, here, _⟩ := List.idxOf?_eq_some_iff.mp place
  have without : ids.filter (· != id) = ids.eraseIdx index := by
    rw [← unique.erase_eq_filter, ← here, unique.erase_getElem]
  have shorter : index ≤ (ids.eraseIdx index).length := by
    rw [List.length_eraseIdx_of_lt inside]
    omega
  subst here
  rw [without, Nat.min_eq_left shorter, List.insertIdx_eraseIdx_getElem inside]

/-- An item that was not in a list is gone from it when it is taken out again. -/
theorem filter_ne_insertIdx {ids : List NodeId} {id : NodeId} (absent : id ∉ ids) {index : Nat}
    (inside : index ≤ ids.length)
    : (ids.insertIdx index id).filter (· != id) = ids := by
  have others {some : List NodeId} (among : some ⊆ ids) : some.filter (· != id) = some := by
    refine List.filter_eq_self.mpr fun other member => ?_
    simpa using fun same : other = id => absent (same ▸ among member)
  rw [insertIdx_eq_append inside, List.filter_append, List.filter_cons_of_neg (by simp),
    others (List.take_subset index ids), others (List.drop_subset index ids),
    List.take_append_drop]

namespace Tree

variable {tree other : Tree} {parent child id : NodeId} {index : Nat}

-----------------------------------------------------------------------------------------
-- Trees with the same nodes
-----------------------------------------------------------------------------------------

/-- A node is what it says, where it hangs and what hangs below it. -/
theorem SameNode.node? (same : tree.SameNode other id) (up : other.parent? id = tree.parent? id)
    : other.node? id = tree.node? id := by
  obtain ⟨content, children⟩ := same
  cases here : tree.node? id with
  | none => simpa [content?, here] using content
  | some node =>
      cases there : other.node? id with
      | none => simp [content?, here, there] at content
      | some now =>
          simp only [content?, childIds, parent?, here, there, Option.map_some, Option.getD_some,
            Option.bind_some, Option.some.injEq] at content children up
          rw [Option.some.injEq]
          cases now
          cases node
          simp_all

/-- Trees of one file with the same root and the same nodes are the same. -/
theorem SameFile.eq (file : tree.SameFile other) (root : other.root = tree.root)
    (parents : ∀ id, other.parent? id = tree.parent? id) (nodes : ∀ id, tree.SameNode other id)
    : other = tree := by
  obtain ⟨path, source, level, writable⟩ := file
  have arena : other.nodes = tree.nodes :=
    Array.ext_getElem? fun id => (nodes id).node? (parents id)
  cases tree
  cases other
  simp_all

-----------------------------------------------------------------------------------------
-- Cutting and hanging
-----------------------------------------------------------------------------------------

/-- A node that was cut off may be hung where it was. -/
theorem Coherent.hangable_cut (coherent : tree.Coherent) (up : tree.parent? id = some parent)
    : (tree.cut parent id).Hangable parent id where
  parentPresent := by simpa using coherent.parent_lt up
  childPresent := by simpa using lt_size_of_parent? up
  top := by simp [cut_parent?]
  notRoot := by simpa using coherent.ne_root up
  free := by
    intro way
    have fewer : (tree.cut parent id).IsParent ≤ tree.IsParent := by
      intro upper lower link
      simp only [IsParent, cut_parent?] at link
      split at link
      · cases link
      · exact link
    exact coherent.acyclic id (.tail' (ReflTransGen.mono fewer _ _ way) up)

theorem cut_sameFile (tree : Tree) (parent child : NodeId)
    : tree.SameFile (tree.cut parent child) :=
  ⟨rfl, rfl, rfl, rfl⟩

theorem hang_sameFile (tree : Tree) (parent : NodeId) (index : Nat) (child : NodeId)
    : tree.SameFile (tree.hang parent index child) :=
  ⟨rfl, rfl, rfl, rfl⟩

/-- A node that is cut off and hung at its old place leaves the tree as it was. -/
theorem Coherent.hang_cut (coherent : tree.Coherent) (up : tree.parent? id = some parent)
    (place : (tree.childIds parent).idxOf? id = some index)
    : (tree.cut parent id).hang parent index id = tree := by
  have hangable := coherent.hangable_cut up
  have file : tree.SameFile ((tree.cut parent id).hang parent index id) :=
    (tree.cut_sameFile parent id).trans (hang_sameFile _ parent index id)
  refine file.eq (by simp) (fun lower => ?_) fun node => ⟨?_, ?_⟩
  · rw [hang_parent? hangable.childPresent, cut_parent?]
    by_cases same : lower = id
    · simp [same, up]
    · simp [same]
  · simp
  · rw [hang_childIds hangable.parentPresent, cut_childIds]
    by_cases same : node = parent
    · simpa [same] using insertIdx_filter_ne (coherent.unique parent) place
    · simp [same]

/-- A node that is hung somewhere and cut off leaves the tree as it was. -/
theorem Linked.cut_hang (linked : tree.Linked) (hangable : tree.Hangable parent child)
    (index : Nat)
    : (tree.hang parent index child).cut parent child = tree := by
  have absent : child ∉ tree.childIds parent := by
    simp [linked.agree, hangable.top]
  have file : tree.SameFile ((tree.hang parent index child).cut parent child) :=
    (tree.hang_sameFile parent index child).trans (cut_sameFile _ parent child)
  refine file.eq (by simp) (fun lower => ?_) fun node => ⟨?_, ?_⟩
  · rw [cut_parent?, hang_parent? hangable.childPresent]
    by_cases same : lower = child
    · simp [same, hangable.top]
    · simp [same]
  · simp
  · rw [cut_childIds, hang_childIds hangable.parentPresent]
    by_cases same : node = parent
    · simpa [same] using filter_ne_insertIdx absent (Nat.min_le_right _ _)
    · simp [same]

/-- A child has a place among the children of its parent. -/
theorem Linked.indexInParent?_exists (linked : tree.Linked) (up : tree.parent? id = some parent)
    : ∃ index,
        tree.indexInParent? id = some index
        ∧ (tree.childIds parent).idxOf? id = some index := by
  cases place : (tree.childIds parent).idxOf? id with
  | none => exact absurd (linked.agree.mpr up) (List.idxOf?_eq_none_iff.mp place)
  | some index => exact ⟨index, by simp [indexInParent?, up, place], rfl⟩

-----------------------------------------------------------------------------------------
-- The edits undo each other
-----------------------------------------------------------------------------------------

/-- In every tree that occurs and may be changed, detaching a node that has a parent and inserting
it there again at its place gives back the tree; and so does inserting a node without a parent that
is not the root, at any place below any node that it is not above, and detaching it again.
-/
theorem Reachable.detach_insertChild_inverse (reachable : tree.Reachable)
    (writable : tree.writable)
    : (∀ id parent,
        tree.parent? id = some parent
        → ∃ index,
            tree.indexInParent? id = some index
            ∧ (do Edit.detach id; Edit.insertChild parent index id : Edit Unit).apply tree
              = (.ok (), tree))
      ∧ ∀ child parent index,
          tree.contains child
          → tree.contains parent
          → tree.parent? child = none
          → child ≠ tree.root
          → child ≠ parent
          → tree.isAncestor child parent = false
          → (do Edit.insertChild parent index child; Edit.detach child : Edit Unit).apply tree
            = (.ok (), tree) := by
  have coherent := reachable.coherent
  refine ⟨fun id parent up => ?_, fun child parent index childThere parentThere top notRoot apart
    free => ?_⟩
  · obtain ⟨index, isIndex, place⟩ := coherent.indexInParent?_exists up
    refine ⟨index, isIndex, ?_⟩
    have cuts := Edit.detach_ok writable up
    have hangs := Edit.insertChild_ok (coherent.cut up).toLinked writable
      (coherent.hangable_cut up) index
    rw [Edit.apply_bind_ok cuts, hangs, coherent.hang_cut up place]
  · have hangable : tree.Hangable parent child :=
      Edit.insertChild_hangable coherent.toLinked
        (refusal?_eq_none_iff.mpr ⟨writable, contains_iff.mp parentThere⟩)
        (refusal?_eq_none_iff.mpr ⟨writable, contains_iff.mp childThere⟩)
        (by simp [top, notRoot]) (by simp [apart.symm, free])
    have hangs := Edit.insertChild_ok coherent.toLinked writable hangable index
    have cuts : (Edit.detach child).apply (tree.hang parent index child)
        = (.ok (), (tree.hang parent index child).cut parent child) :=
      Edit.detach_ok writable (by simp [hang_parent? hangable.childPresent])
    rw [Edit.apply_bind_ok hangs, cuts, coherent.cut_hang hangable]

end Tree

/-- A file with a class of three methods. -/
def threeMethods : Document where
  root :=
    Outline.file.withChild <| (Outline.namedClass "Counter").append
      [Outline.method "reset", Outline.method "count", Outline.method "read"]

/-- The method in the middle is put back in the middle; and once it is loose, hanging it in the
first method, farther behind than there are children, is undone by detaching it.
-/
theorem threeMethods_restored
    : let tree := Tree.ofDocument threeMethods
      let loose := tree.afterCall (.detach 3)
      (do Edit.detach 3; Edit.insertChild 1 1 3 : Edit Unit).apply tree = (.ok (), tree)
      ∧ (do Edit.insertChild 2 7 3; Edit.detach 3 : Edit Unit).apply loose = (.ok (), loose) := by
  intro tree loose
  have loaded : tree.Reachable := .loaded threeMethods
  obtain ⟨index, isIndex, restored⟩ :=
    (loaded.detach_insertChild_inverse (by decide)).1 3 1 (by decide)
  obtain rfl : 1 = index := Option.some.inj isIndex
  have called : loose.Reachable := .called loaded (.detach 3)
  exact ⟨restored, (called.detach_insertChild_inverse (by decide)).2 3 2 7 (by decide) (by decide)
    (by decide) (by decide) (by decide) (by decide)⟩

end TreeLint
