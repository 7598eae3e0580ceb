import Mathlib.Data.List.Nodup
import TreeLint.Proofs.Tree.Preservation
import TreeLint.Proofs.Tree.Subtrees

/-! Trees after any sequence of edits. A call may name any node and may fail; whatever it does, the
next one starts from a coherent tree again.
-/

namespace TreeLint

-----------------------------------------------------------------------------------------
-- Calls
-----------------------------------------------------------------------------------------

/-- A call of one of the operations that change a tree, with its arguments. -/
inductive EditCall where
  | removeModifier (id : NodeId) (modifier : Modifier)
  | replaceWithText (id : NodeId) (text : String)
  | detach (id : NodeId)
  | addOutline (outline : Outline)
  | insertChild (parent : NodeId) (index : Nat) (child : NodeId)
  | setRole (id : NodeId) (role : Role)
  | setName (id : NodeId) (name : String)
  | setWritable (writable : Bool)

def EditCall.run : EditCall → Edit Unit
  | .removeModifier id modifier => Edit.removeModifier id modifier
  | .replaceWithText id text => Edit.replaceWithText id text
  | .detach id => Edit.detach id
  | .addOutline outline => do let _ ← Edit.addOutline outline
  | .insertChild parent index child => Edit.insertChild parent index child
  | .setRole id role => Edit.setRole id role
  | .setName id name => Edit.setName id name
  | .setWritable writable => Edit.setWritable writable

/-- Every call leaves a coherent tree coherent. -/
theorem EditCall.run_keepsCoherent (call : EditCall) : call.run.KeepsCoherent := by
  cases call with
  | removeModifier id modifier => exact .reword id _
  | replaceWithText id text => exact .replaceWithText id text
  | detach id => exact .detach id
  | addOutline outline => exact .bind (.addOutline outline) fun _ => .pure ()
  | insertChild parent index child => exact .insertChild parent index child
  | setRole id role => exact .reword id _
  | setName id name => exact .reword id _
  | setWritable writable => exact .setWritable writable

namespace Tree

/-- The tree as a call leaves it, whether the call succeeds or fails. -/
def afterCall (tree : Tree) (call : EditCall) : Tree :=
  (call.run.apply tree).2

/-- The tree as some calls leave it, one after the other. -/
def afterCalls (tree : Tree) (calls : List EditCall) : Tree :=
  calls.foldl afterCall tree

theorem Coherent.afterCalls {tree : Tree} (coherent : tree.Coherent) (calls : List EditCall)
    : (tree.afterCalls calls).Coherent := by
  induction calls generalizing tree with
  | nil => exact coherent
  | cons call rest ih => exact ih (call.run_keepsCoherent tree coherent)

-----------------------------------------------------------------------------------------
-- Well-formed arenas
-----------------------------------------------------------------------------------------

/-- What users of a tree rely on. Walks end if walking further than the arena is large finds
nothing more.
-/
structure WellFormed (tree : Tree) : Prop where
  rootPresent : tree.contains tree.root
  rootTop : tree.parent? tree.root = none
  childrenPresent : ∀ id, ∀ child ∈ tree.childIds id, tree.contains child
  parentsPresent : ∀ id, ∀ parent ∈ tree.parent? id, tree.contains parent
  linksAgree : ∀ parent child, child ∈ tree.childIds parent ↔ tree.parent? child = some parent
  listedOnce : (tree.nodes.toList.flatMap (·.children)).Nodup
  labelsPresent : ∀ label, ∀ id ∈ tree.labelled? label, tree.contains id
  acyclic : ∀ id, ¬tree.Above id id
  ancestorsEnd : ∀ id bound, tree.size ≤ bound → tree.ancestorsWithin bound id = tree.ancestors id
  preorderEnds : ∀ bound, tree.size ≤ bound → tree.preorderFrom bound [tree.root] = tree.preorder

/-- The children of the node at a place of the arena are those of the node with its number. -/
theorem childIds_eq_getElem {tree : Tree} {id : Nat} (present : id < tree.nodes.toList.length)
    : tree.childIds id = tree.nodes.toList[id].children := by
  have found : tree.node? id = some tree.nodes.toList[id] := by
    rw [node?, ← Array.getElem?_toList]
    exact List.getElem?_eq_getElem present
  rw [childIds, found, Option.map_some, Option.getD_some]

/-- In linked arenas, the children lists taken together name no node twice. -/
theorem Linked.listedOnce {tree : Tree} (linked : tree.Linked)
    : (tree.nodes.toList.flatMap (·.children)).Nodup := by
  refine List.nodup_flatMap.mpr ⟨?_, List.pairwise_iff_getElem.mpr ?_⟩
  · intro node member
    obtain ⟨id, present, rfl⟩ := List.mem_iff_getElem.mp member
    rw [← childIds_eq_getElem present]
    exact linked.unique id
  · intro i j first second before child left right
    simp only [← childIds_eq_getElem, linked.agree] at left right
    have same : i = j := Option.some.inj (left.symm.trans right)
    omega

/-- A node found by its label is inside the arena. -/
theorem labelled?_lt {tree : Tree} {label : String} {id : NodeId}
    (found : tree.labelled? label = some id)
    : id < tree.size :=
  (Array.findIdx?_eq_some_iff_getElem.mp found).1

theorem Coherent.wellFormed {tree : Tree} (coherent : tree.Coherent) : tree.WellFormed where
  rootPresent := coherent.rootPresent
  rootTop := coherent.rootTop
  childrenPresent _ _ member := contains_iff.mpr (coherent.child_lt member)
  parentsPresent _ _ up := contains_iff.mpr (coherent.parent_lt up)
  linksAgree _ _ := coherent.agree
  listedOnce := coherent.listedOnce
  labelsPresent _ _ found := contains_iff.mpr (labelled?_lt found)
  acyclic := coherent.acyclic
  ancestorsEnd id _ enough := coherent.ancestorsWithin_eq enough id
  preorderEnds _ enough := by
    obtain ⟨top, shown⟩ := coherent.subtree?_exists (contains_iff.mp coherent.rootPresent)
    rw [coherent.preorderFrom_eq shown enough, coherent.preorder_eq shown]

/-- Whatever is called on a loaded tree, with any nodes and in any order, it stays well formed. -/
theorem wellFormed_afterCalls (document : Document) (calls : List EditCall)
    : ((ofDocument document).afterCalls calls).WellFormed :=
  ((ofDocument_coherent document).afterCalls calls).wellFormed

end Tree
end TreeLint
