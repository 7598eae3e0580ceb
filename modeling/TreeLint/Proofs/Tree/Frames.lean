import TreeLint.Proofs.Tree.Preservation

/-! Edits that cannot fail, and what they leave alone. A node that is fresh or was just cut off
can be hung below any node whose ancestors no edit has moved.
-/

namespace TreeLint

open Relation

namespace Tree

-----------------------------------------------------------------------------------------
-- What edits leave alone
-----------------------------------------------------------------------------------------

@[simp] theorem cut_writable (tree : Tree) (parent child : NodeId)
    : (tree.cut parent child).writable = tree.writable := rfl

@[simp] theorem hang_writable (tree : Tree) (parent : NodeId) (index : Nat) (child : NodeId)
    : (tree.hang parent index child).writable = tree.writable := rfl

@[simp] theorem grow_writable (tree : Tree) (outline : Outline)
    : (tree.grow outline).writable = tree.writable := rfl

@[simp] theorem reword_writable (tree : Tree) (id : NodeId) (f : Content → Content)
    : (tree.reword id f).writable = tree.writable := rfl

/-- The second tree is the first after edits that gave other parents to the listed nodes alone.
Nodes may have been added.
-/
structure Frame (tree : Tree) (moved : List NodeId) (other : Tree) : Prop where
  root : other.root = tree.root
  writable : other.writable = tree.writable
  grows : tree.size ≤ other.size
  parents : ∀ id < tree.size, id ∉ moved → other.parent? id = tree.parent? id

theorem Frame.refl (tree : Tree) (moved : List NodeId) : tree.Frame moved tree :=
  ⟨rfl, rfl, Nat.le_refl _, fun _ _ _ => rfl⟩

/-- Frames compose; of the nodes moved later, those that are new do not count. -/
theorem Frame.trans {tree middle other : Tree} {first second moved : List NodeId}
    (left : tree.Frame first middle) (right : middle.Frame second other)
    (early : first ⊆ moved) (late : ∀ id < tree.size, id ∈ second → id ∈ moved)
    : tree.Frame moved other where
  root := right.root.trans left.root
  writable := right.writable.trans left.writable
  grows := Nat.le_trans left.grows right.grows
  parents id old still := by
    have behind := right.parents id (Nat.lt_of_lt_of_le old left.grows) fun member =>
      still (late id old member)
    rw [behind, left.parents id old fun member => still (early member)]

/-- Cutting a node off moves that node. -/
theorem cut_frame (tree : Tree) (parent child : NodeId)
    : tree.Frame [child] (tree.cut parent child) where
  root := rfl
  writable := rfl
  grows := Nat.le_of_eq (cut_size tree parent child).symm
  parents id _ still := by
    rw [cut_parent?, if_neg (by simpa using still)]

theorem hang_frame {tree : Tree} {parent child : NodeId} (hangable : tree.Hangable parent child)
    (index : Nat)
    : tree.Frame [child] (tree.hang parent index child) where
  root := rfl
  writable := rfl
  grows := Nat.le_of_eq (hang_size tree parent index child).symm
  parents id _ still := by
    rw [hang_parent? hangable.childPresent, if_neg (by simpa using still)]

/-- Adding nodes moves none. -/
theorem grow_frame (tree : Tree) (outline : Outline) : tree.Frame [] (tree.grow outline) where
  root := rfl
  writable := rfl
  grows := by
    rw [grow_size]
    exact Nat.le_add_right _ _
  parents _ old _ := grow_parent?_of_lt old

/-- Changing what a node says about itself moves none. -/
theorem reword_frame (tree : Tree) (id : NodeId) (f : Content → Content)
    : tree.Frame [] (tree.reword id f) where
  root := rfl
  writable := rfl
  grows := Nat.le_of_eq (reword_size tree id f).symm
  parents other _ _ := reword_parent? tree id f other

-----------------------------------------------------------------------------------------
-- Where nodes may be hung
-----------------------------------------------------------------------------------------

/-- Nothing is above a node without a parent. -/
theorem not_above_of_top {tree : Tree} {upper lower : NodeId} (top : tree.parent? lower = none)
    : ¬tree.Above upper lower := by
  intro above
  obtain ⟨parent, up, _⟩ := above_iff.mp above
  exact absurd (top.symm.trans up) (by simp)

/-- No added node is above a node that was above all that moved: the chain up from that node is
the one from before.
-/
theorem Frame.not_above_new {tree other : Tree} {moved : List NodeId} {upper lower : NodeId}
    (frame : tree.Frame moved other) (linked : tree.Linked) (present : lower < tree.size)
    (covers : ∀ id ∈ moved, tree.Above lower id) (new : tree.size ≤ upper)
    : ¬other.Above upper lower := by
  have still {id : NodeId} (upward : ReflTransGen tree.IsParent id lower) : id ∉ moved :=
    fun member => linked.acyclic id (TransGen.trans_right upward (covers id member))
  intro above
  have before : tree.Above upper lower := by
    refine above.transfer (frame.parents lower present (still .refl)) fun id higher => ?_
    exact frame.parents id (linked.above_lt higher).1 (still higher.to_reflTransGen)
  exact Nat.not_le_of_lt (linked.above_lt before).1 new

/-- An added node without a parent may be hung below a node that was above all that moved. -/
theorem Frame.hangable_new {tree other : Tree} {moved : List NodeId} {parent child : NodeId}
    (frame : tree.Frame moved other) (coherent : tree.Coherent) (parentOld : parent < tree.size)
    (covers : ∀ id ∈ moved, tree.Above parent id) (new : tree.size ≤ child)
    (present : child < other.size) (top : other.parent? child = none)
    : other.Hangable parent child where
  parentPresent := Nat.lt_of_lt_of_le parentOld frame.grows
  childPresent := present
  top := top
  notRoot := by
    rw [frame.root]
    exact Nat.ne_of_gt (Nat.lt_of_lt_of_le (contains_iff.mp coherent.rootPresent) new)
  free := by
    rw [reflTransGen_iff_eq_or_transGen]
    rintro (same | above)
    · exact Nat.not_le_of_lt (same ▸ parentOld) new
    · exact frame.not_above_new coherent.toLinked parentOld covers new above

/-- A node without a parent may be hung below another one that nothing is above. -/
theorem Hangable.of_tops {tree : Tree} {parent child : NodeId} (parentPresent : parent < tree.size)
    (childPresent : child < tree.size) (parentTop : tree.parent? parent = none)
    (top : tree.parent? child = none) (notRoot : child ≠ tree.root) (distinct : parent ≠ child)
    : tree.Hangable parent child where
  parentPresent := parentPresent
  childPresent := childPresent
  top := top
  notRoot := notRoot
  free := by
    rw [reflTransGen_iff_eq_or_transGen]
    exact not_or.mpr ⟨distinct, not_above_of_top parentTop⟩

theorem Coherent.ne_root {tree : Tree} (coherent : tree.Coherent) {id parent : NodeId}
    (up : tree.parent? id = some parent)
    : id ≠ tree.root := by
  rintro rfl
  exact absurd (coherent.rootTop.symm.trans up) (by simp)

end Tree

-----------------------------------------------------------------------------------------
-- Edits that succeed
-----------------------------------------------------------------------------------------

namespace Edit

/-- An edit that asks whether it may goes on where it may. -/
theorem ensureNode_bind {tree : Tree} {id : NodeId} (writable : tree.writable)
    (present : id < tree.size) (next : Unit → Edit α)
    : (ensureNode id >>= next).apply tree = (next ()).apply tree := by
  refine apply_bind_ok ?_
  rw [ensureNode_apply, Tree.refusal?_eq_none_iff.mpr ⟨writable, present⟩]

theorem current_bind (tree : Tree) (next : Tree → Edit α)
    : (current >>= next).apply tree = (next tree).apply tree :=
  apply_bind_ok rfl

/-- An edit that requires what is there goes on with it. -/
theorem require_bind {wanted : Option α} {part : α} (there : wanted = some part) (id : NodeId)
    (fault : ShapeFault) (next : α → Edit β) (tree : Tree)
    : (require id fault wanted >>= next).apply tree = (next part).apply tree := by
  rw [there]
  exact apply_bind_ok rfl

/-- An edit that requires what is not there fails over the shape of the tree. -/
theorem require_bind_none {wanted : Option α} (missing : wanted = none) (id : NodeId)
    (fault : ShapeFault) (next : α → Edit β) (tree : Tree)
    : (require id fault wanted >>= next).apply tree = (.error (.shape id fault), tree) := by
  rw [missing]
  exact apply_bind_error rfl

theorem detach_ok {tree : Tree} {id parent : NodeId} (writable : tree.writable)
    (up : tree.parent? id = some parent)
    : (detach id).apply tree = (.ok (), tree.cut parent id) := by
  have known := Tree.refusal?_eq_none_iff.mpr ⟨writable, Tree.lt_size_of_parent? up⟩
  rw [detach_apply, known, up]

theorem addOutline_ok {tree : Tree} (writable : tree.writable) (outline : Outline)
    : (addOutline outline).apply tree = (.ok tree.size, tree.grow outline) := by
  rw [addOutline_apply, if_pos writable]

theorem insertChild_ok {tree : Tree} (linked : tree.Linked) {parent child : NodeId}
    (writable : tree.writable) (hangable : tree.Hangable parent child) (index : Nat)
    : (insertChild parent index child).apply tree = (.ok (), tree.hang parent index child) := by
  have parentKnown := Tree.refusal?_eq_none_iff.mpr ⟨writable, hangable.parentPresent⟩
  have childKnown := Tree.refusal?_eq_none_iff.mpr ⟨writable, hangable.childPresent⟩
  have detached : ¬((tree.parent? child).isSome ∨ child = tree.root) := by
    simp [hangable.top, hangable.notRoot]
  have free : ¬(parent = child ∨ tree.isAncestor child parent) := by
    rw [linked.isAncestor_iff, Tree.Above, ← reflTransGen_iff_eq_or_transGen]
    exact hangable.free
  rw [insertChild_apply, parentKnown, childKnown]
  simp only [if_neg detached, if_neg free]

theorem setRole_ok {tree : Tree} {id : NodeId} (writable : tree.writable)
    (present : id < tree.size) (role : Role)
    : (setRole id role).apply tree = (.ok (), tree.reword id ({ · with role })) := by
  rw [setRole_apply, Tree.refusal?_eq_none_iff.mpr ⟨writable, present⟩]

theorem replaceWithText_ok {tree : Tree} {id : NodeId} (writable : tree.writable)
    (present : id < tree.size) (text : String)
    : (replaceWithText id text).apply tree = (.ok (), tree.fragment id text) := by
  rw [replaceWithText_apply, Tree.refusal?_eq_none_iff.mpr ⟨writable, present⟩]

-----------------------------------------------------------------------------------------
-- All or nothing
-----------------------------------------------------------------------------------------

def Succeeds (edit : Edit α) (tree : Tree) : Prop :=
  ∃ value after, edit.apply tree = (.ok value, after)

/-- An edit succeeds if what comes first does, with a tree on which the rest does. -/
theorem Succeeds.bind {first : Edit α} {next : α → Edit β} {tree middle : Tree} {value : α}
    (succeeds : first.apply tree = (.ok value, middle)) (rest : (next value).Succeeds middle)
    : (first >>= next).Succeeds tree := by
  obtain ⟨result, after, ends⟩ := rest
  exact ⟨result, after, (apply_bind_ok succeeds).trans ends⟩

/-- If the edit fails on the tree, it leaves the tree exactly as it was. -/
def AllOrNothing (edit : Edit α) (tree : Tree) : Prop :=
  ∀ error after, edit.apply tree = (.error error, after) → after = tree

/-- An edit that succeeds leaves nothing half done. -/
theorem Succeeds.allOrNothing {edit : Edit α} {tree : Tree} (succeeds : edit.Succeeds tree)
    : edit.AllOrNothing tree := by
  obtain ⟨value, middle, ends⟩ := succeeds
  intro error after fails
  rw [ends] at fails
  exact absurd (congrArg Prod.fst fails) (by simp)

theorem AllOrNothing.throw (error : FixError) (tree : Tree)
    : AllOrNothing (MonadExcept.throw error : Edit α) tree := by
  intro other after fails
  exact (congrArg Prod.snd fails).symm

/-- An edit whose first part only looks at the tree is all or nothing if the rest is. -/
theorem AllOrNothing.after_look {first : Edit α} {next : α → Edit β} {tree : Tree}
    (looks : (first.apply tree).2 = tree)
    (rest : ∀ value, first.apply tree = (.ok value, tree) → (next value).AllOrNothing tree)
    : (first >>= next).AllOrNothing tree := by
  intro error after fails
  rw [apply_bind] at fails
  cases outcome : first.apply tree with
  | mk result middle =>
      rw [outcome] at looks
      subst looks
      rw [outcome] at fails
      cases result with
      | ok value => exact rest value outcome error after fails
      | error other => exact (congrArg Prod.snd fails).symm

theorem AllOrNothing.after_current {next : Tree → Edit β} {tree : Tree}
    (rest : (next tree).AllOrNothing tree)
    : (current >>= next).AllOrNothing tree := by
  refine .after_look rfl fun value found => ?_
  cases found
  exact rest

theorem AllOrNothing.after_require {id : NodeId} {fault : ShapeFault} {wanted : Option α}
    {next : α → Edit β} {tree : Tree}
    (rest : ∀ value, wanted = some value → (next value).AllOrNothing tree)
    : (require id fault wanted >>= next).AllOrNothing tree := by
  cases wanted with
  | none => exact .after_look rfl fun value found => by cases found
  | some value => exact rest value rfl

theorem AllOrNothing.after_ensureNode {id : NodeId} {next : Unit → Edit β} {tree : Tree}
    (rest : tree.writable → id < tree.size → (next ()).AllOrNothing tree)
    : (ensureNode id >>= next).AllOrNothing tree := by
  have looks := ensureNode_apply tree id
  cases known : tree.refusal? id with
  | some error =>
      rw [known] at looks
      refine .after_look (by rw [looks]) fun value found => ?_
      rw [looks] at found
      exact absurd (congrArg Prod.fst found) (by simp)
  | none =>
      rw [known] at looks
      obtain ⟨writable, present⟩ := Tree.refusal?_eq_none_iff.mp known
      exact .after_look (by rw [looks]) fun _ _ => rest writable present

/-- An edit that first asks whether it may is refused by a tree that may not be changed. -/
theorem ensureNode_bind_readOnly {tree : Tree} (readOnly : tree.writable = false) (id : NodeId)
    (next : Unit → Edit β)
    : (ensureNode id >>= next).apply tree = (.error .readOnly, tree) := by
  refine apply_bind_error ?_
  rw [ensureNode_apply, Tree.refusal?_of_readOnly readOnly]

end Edit
end TreeLint
