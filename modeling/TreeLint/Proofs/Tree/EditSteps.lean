import TreeLint.Proofs.Tree.Numbering

/-! What each edit does to a tree: it either fails and leaves the tree alone, or it changes content,
cuts or makes a link, or lets the arena grow. The changes are given as functions of the tree, with
the links that they leave.
-/

namespace TreeLint

-----------------------------------------------------------------------------------------
-- Edits in sequence
-----------------------------------------------------------------------------------------

namespace Edit

@[simp] theorem apply_pure (value : α) (tree : Tree)
    : (pure value : Edit α).apply tree = (.ok value, tree) := rfl

@[simp] theorem apply_throw (error : FixError) (tree : Tree)
    : (throw error : Edit α).apply tree = (.error error, tree) := rfl

@[simp] theorem apply_current (tree : Tree) : current.apply tree = (.ok tree, tree) := rfl

/-- An edit behind another starts where that one ends, unless that one fails. -/
theorem apply_bind (first : Edit α) (next : α → Edit β) (tree : Tree)
    : (first >>= next).apply tree
      = match first.apply tree with
        | (.ok value, after) => (next value).apply after
        | (.error error, after) => (.error error, after) := by
  cases outcome : first.apply tree with
  | mk result after =>
      change ExceptT.bindCont next (first.apply tree).1 (first.apply tree).2 = _
      rw [outcome]
      cases result <;> rfl

/-- Behind an edit that succeeds comes what follows it. -/
theorem apply_bind_ok {first : Edit α} {next : α → Edit β} {tree after : Tree} {value : α}
    (succeeds : first.apply tree = (.ok value, after))
    : (first >>= next).apply tree = (next value).apply after := by
  rw [apply_bind, succeeds]

/-- Behind an edit that fails comes nothing. -/
theorem apply_bind_error {first : Edit α} {next : α → Edit β} {tree after : Tree}
    {error : FixError} (fails : first.apply tree = (.error error, after))
    : (first >>= next).apply tree = (.error error, after) := by
  rw [apply_bind, fails]

@[simp] theorem apply_require_some (id : NodeId) (fault : ShapeFault) (value : α) (tree : Tree)
    : (require id fault (some value)).apply tree = (.ok value, tree) := rfl

@[simp] theorem apply_require_none (id : NodeId) (fault : ShapeFault) (tree : Tree)
    : (require id fault (none : Option α)).apply tree = (.error (.shape id fault), tree) := rfl

end Edit

-----------------------------------------------------------------------------------------
-- Changes of a tree
-----------------------------------------------------------------------------------------

namespace Tree

/-- Why an edit of a node is refused before anything is looked at, if it is. -/
def refusal? (tree : Tree) (id : NodeId) : Option FixError :=
  if tree.writable then
    if tree.contains id then none else some (.unknownNode id)
  else
    some .readOnly

/-- An edit goes ahead exactly if the tree may be changed and has the node. -/
theorem refusal?_eq_none_iff {tree : Tree} {id : NodeId}
    : tree.refusal? id = none ↔ tree.writable ∧ id < tree.size := by
  rw [refusal?, ← contains_iff]
  by_cases writable : tree.writable <;> by_cases present : tree.contains id
    <;> simp [writable, present]

/-- A tree that may not be changed refuses every edit of a node. -/
theorem refusal?_of_readOnly {tree : Tree} (readOnly : tree.writable = false) (id : NodeId)
    : tree.refusal? id = some .readOnly := by
  simp [refusal?, readOnly]

def updateNode (tree : Tree) (id : NodeId) (f : Node → Node) : Tree :=
  { tree with nodes := tree.nodes.modify id f }

/-- The tree with a node given another parent, or none. -/
def relink (tree : Tree) (id : NodeId) (parent : Option NodeId) : Tree :=
  tree.updateNode id ({ · with parent })

/-- The tree with the children of a node changed. -/
def rearrange (tree : Tree) (id : NodeId) (f : List NodeId → List NodeId) : Tree :=
  tree.updateNode id fun node => { node with children := f node.children }

/-- The tree with what a node says about itself changed. -/
def reword (tree : Tree) (id : NodeId) (f : Content → Content) : Tree :=
  tree.updateNode id fun node => { node with content := f node.content }

/-- The tree with the link between a node and its parent cut. -/
def cut (tree : Tree) (parent child : NodeId) : Tree :=
  (tree.relink child none).rearrange parent (·.filter (· != child))

/-- The tree with a node hung below another. -/
def hang (tree : Tree) (parent : NodeId) (index : Nat) (child : NodeId) : Tree :=
  (tree.rearrange parent fun ids => ids.insertIdx (min index ids.length) child).relink
    child (some parent)

/-- The tree with the parents of some nodes forgotten. -/
def orphan (tree : Tree) (ids : List NodeId) : Tree :=
  ids.foldl (·.relink · none) tree

def fragment (tree : Tree) (id : NodeId) (text : String) : Tree :=
  (tree.orphan (tree.childIds id)).updateNode id fun node =>
    { node with
      children := []
      content :=
        { node.content with
          kind := .fragment, name := none, text := some text, modifiers := [], facts := { } } }

@[simp] theorem updateNode_root (tree : Tree) (id : NodeId) (f : Node → Node)
    : (tree.updateNode id f).root = tree.root := rfl

@[simp] theorem updateNode_writable (tree : Tree) (id : NodeId) (f : Node → Node)
    : (tree.updateNode id f).writable = tree.writable := rfl

@[simp] theorem updateNode_size (tree : Tree) (id : NodeId) (f : Node → Node)
    : (tree.updateNode id f).size = tree.size := by
  simp [updateNode, size]

theorem updateNode_node? (tree : Tree) (id other : NodeId) (f : Node → Node)
    : (tree.updateNode id f).node? other
      = if other = id then (tree.node? other).map f else tree.node? other := by
  rw [updateNode, node?, Array.getElem?_modify]
  by_cases same : other = id
  · simp [same, node?]
  · simp [same, Ne.symm same, node?]

/-- Changing a node without its parent keeps all parents. -/
theorem updateNode_parent? (tree : Tree) (id : NodeId) (f : Node → Node)
    (keeps : ∀ node, (f node).parent = node.parent) (other : NodeId)
    : (tree.updateNode id f).parent? other = tree.parent? other := by
  rw [parent?, parent?, updateNode_node?]
  split
  · cases tree.node? other <;> simp [keeps]
  · rfl

/-- Changing a node without its children keeps all children lists. -/
theorem updateNode_childIds (tree : Tree) (id : NodeId) (f : Node → Node)
    (keeps : ∀ node, (f node).children = node.children) (other : NodeId)
    : (tree.updateNode id f).childIds other = tree.childIds other := by
  rw [childIds, childIds, updateNode_node?]
  split
  · cases tree.node? other <;> simp [keeps]
  · rfl

/-- Emptying the children of a node empties its list alone. -/
theorem updateNode_childIds_nil (tree : Tree) (id : NodeId) (f : Node → Node)
    (empties : ∀ node, (f node).children = []) (other : NodeId)
    : (tree.updateNode id f).childIds other = if other = id then [] else tree.childIds other := by
  rw [childIds, childIds, updateNode_node?]
  by_cases same : other = id
  · cases found : tree.node? other <;> simp [same, empties]
  · simp [same]

@[simp] theorem relink_size (tree : Tree) (id : NodeId) (parent : Option NodeId)
    : (tree.relink id parent).size = tree.size :=
  updateNode_size tree id _

theorem relink_parent? {tree : Tree} {id : NodeId} {parent : Option NodeId}
    (present : parent = none ∨ id < tree.size) (other : NodeId)
    : (tree.relink id parent).parent? other
      = if other = id then parent else tree.parent? other := by
  rw [relink, parent?, parent?, updateNode_node?]
  by_cases same : other = id
  · subst same
    cases found : tree.node? other with
    | none =>
        rcases present with empty | present
        · simp [empty]
        · exact absurd (node?_eq_none_iff.mp found) (Nat.not_le_of_lt present)
    | some node => simp
  · simp [same]

@[simp] theorem relink_childIds (tree : Tree) (id : NodeId) (parent : Option NodeId)
    (other : NodeId)
    : (tree.relink id parent).childIds other = tree.childIds other :=
  updateNode_childIds tree id _ (fun _ => by rfl) other

@[simp] theorem rearrange_size (tree : Tree) (id : NodeId) (f : List NodeId → List NodeId)
    : (tree.rearrange id f).size = tree.size :=
  updateNode_size tree id _

@[simp] theorem rearrange_parent? (tree : Tree) (id : NodeId) (f : List NodeId → List NodeId)
    (other : NodeId)
    : (tree.rearrange id f).parent? other = tree.parent? other :=
  updateNode_parent? tree id _ (fun _ => by rfl) other

theorem rearrange_childIds {tree : Tree} {id : NodeId} {f : List NodeId → List NodeId}
    (present : f [] = [] ∨ id < tree.size) (other : NodeId)
    : (tree.rearrange id f).childIds other
      = if other = id then f (tree.childIds other) else tree.childIds other := by
  rw [rearrange, childIds, childIds, updateNode_node?]
  by_cases same : other = id
  · subst same
    cases found : tree.node? other with
    | none =>
        rcases present with empty | present
        · simp [empty]
        · exact absurd (node?_eq_none_iff.mp found) (Nat.not_le_of_lt present)
    | some node => simp
  · simp [same]

@[simp] theorem reword_root (tree : Tree) (id : NodeId) (f : Content → Content)
    : (tree.reword id f).root = tree.root := rfl

@[simp] theorem reword_size (tree : Tree) (id : NodeId) (f : Content → Content)
    : (tree.reword id f).size = tree.size :=
  updateNode_size tree id _

@[simp] theorem reword_parent? (tree : Tree) (id : NodeId) (f : Content → Content) (other : NodeId)
    : (tree.reword id f).parent? other = tree.parent? other :=
  updateNode_parent? tree id _ (fun _ => by rfl) other

@[simp] theorem reword_childIds (tree : Tree) (id : NodeId) (f : Content → Content)
    (other : NodeId)
    : (tree.reword id f).childIds other = tree.childIds other :=
  updateNode_childIds tree id _ (fun _ => by rfl) other

@[simp] theorem cut_root (tree : Tree) (parent child : NodeId)
    : (tree.cut parent child).root = tree.root := rfl

@[simp] theorem cut_size (tree : Tree) (parent child : NodeId)
    : (tree.cut parent child).size = tree.size := by
  simp [cut]

theorem cut_parent? (tree : Tree) (parent child id : NodeId)
    : (tree.cut parent child).parent? id = if id = child then none else tree.parent? id := by
  rw [cut, rearrange_parent?, relink_parent? (Or.inl rfl)]

theorem cut_childIds (tree : Tree) (parent child id : NodeId)
    : (tree.cut parent child).childIds id
      = if id = parent then (tree.childIds id).filter (· != child) else tree.childIds id := by
  rw [cut, rearrange_childIds (Or.inl rfl), relink_childIds]

@[simp] theorem hang_root (tree : Tree) (parent : NodeId) (index : Nat) (child : NodeId)
    : (tree.hang parent index child).root = tree.root := rfl

@[simp] theorem hang_size (tree : Tree) (parent : NodeId) (index : Nat) (child : NodeId)
    : (tree.hang parent index child).size = tree.size := by
  simp [hang]

theorem hang_parent? {tree : Tree} {parent : NodeId} {index : Nat} {child : NodeId}
    (present : child < tree.size) (id : NodeId)
    : (tree.hang parent index child).parent? id
      = if id = child then some parent else tree.parent? id := by
  rw [hang, relink_parent? (Or.inr (by simpa using present)), rearrange_parent?]

theorem hang_childIds {tree : Tree} {parent : NodeId} {index : Nat} {child : NodeId}
    (present : parent < tree.size) (id : NodeId)
    : (tree.hang parent index child).childIds id
      = if id = parent then (tree.childIds id).insertIdx (min index (tree.childIds id).length) child
        else tree.childIds id := by
  rw [hang, relink_childIds, rearrange_childIds (Or.inr present)]

@[simp] theorem orphan_root (tree : Tree) (ids : List NodeId)
    : (tree.orphan ids).root = tree.root := by
  induction ids generalizing tree with
  | nil => rfl
  | cons id rest ih => exact ih _

@[simp] theorem orphan_writable (tree : Tree) (ids : List NodeId)
    : (tree.orphan ids).writable = tree.writable := by
  induction ids generalizing tree with
  | nil => rfl
  | cons id rest ih => exact ih _

@[simp] theorem orphan_size (tree : Tree) (ids : List NodeId)
    : (tree.orphan ids).size = tree.size := by
  induction ids generalizing tree with
  | nil => rfl
  | cons id rest ih => exact (ih _).trans (relink_size tree id none)

theorem orphan_parent? (tree : Tree) (ids : List NodeId) (id : NodeId)
    : (tree.orphan ids).parent? id = if id ∈ ids then none else tree.parent? id := by
  induction ids generalizing tree with
  | nil => simp [orphan]
  | cons first rest ih =>
      have step := ih (tree.relink first none)
      rw [relink_parent? (Or.inl rfl)] at step
      rw [orphan, List.foldl_cons, ← orphan, step]
      by_cases same : id = first <;> simp [same]

@[simp] theorem orphan_childIds (tree : Tree) (ids : List NodeId) (id : NodeId)
    : (tree.orphan ids).childIds id = tree.childIds id := by
  induction ids generalizing tree with
  | nil => rfl
  | cons first rest ih => exact (ih _).trans (relink_childIds tree first none id)

@[simp] theorem fragment_root (tree : Tree) (id : NodeId) (text : String)
    : (tree.fragment id text).root = tree.root := by
  simp [fragment]

@[simp] theorem fragment_size (tree : Tree) (id : NodeId) (text : String)
    : (tree.fragment id text).size = tree.size := by
  simp [fragment]

theorem fragment_parent? (tree : Tree) (id : NodeId) (text : String) (other : NodeId)
    : (tree.fragment id text).parent? other
      = if other ∈ tree.childIds id then none else tree.parent? other :=
  (updateNode_parent? _ id _ (fun _ => by rfl) other).trans (orphan_parent? tree _ other)

theorem fragment_childIds (tree : Tree) (id : NodeId) (text : String) (other : NodeId)
    : (tree.fragment id text).childIds other = if other = id then [] else tree.childIds other :=
  (updateNode_childIds_nil _ id _ (fun _ => by rfl) other).trans (by rw [orphan_childIds])

end Tree

-----------------------------------------------------------------------------------------
-- The outcome of each edit
-----------------------------------------------------------------------------------------

namespace Edit

theorem ensureWritable_apply (tree : Tree)
    : ensureWritable.apply tree
      = if tree.writable then (.ok (), tree) else (.error .readOnly, tree) := by
  rw [ensureWritable, apply_bind, apply_current]
  by_cases writable : tree.writable <;> simp [writable]

theorem ensureNode_apply (tree : Tree) (id : NodeId)
    : (ensureNode id).apply tree
      = match tree.refusal? id with
        | some error => (.error error, tree)
        | none => (.ok (), tree) := by
  rw [ensureNode, apply_bind, ensureWritable_apply, Tree.refusal?]
  by_cases writable : tree.writable
  · by_cases present : tree.contains id
    · simp [writable, present, apply_bind]
    · simp [writable, present, apply_bind]
  · simp [writable]

@[simp] theorem modifyNode_apply (id : NodeId) (f : Node → Node) (tree : Tree)
    : (modifyNode id f).apply tree = (.ok (), tree.updateNode id f) := rfl

@[simp] theorem modifyContent_apply (id : NodeId) (f : Content → Content) (tree : Tree)
    : (modifyContent id f).apply tree = (.ok (), tree.reword id f) := rfl

/-- An edit of the content of a node is refused or done. -/
theorem reword_apply (tree : Tree) (id : NodeId) (f : Content → Content)
    : (do ensureNode id; modifyContent id f : Edit Unit).apply tree
      = match tree.refusal? id with
        | some error => (.error error, tree)
        | none => (.ok (), tree.reword id f) := by
  rw [apply_bind, ensureNode_apply]
  cases tree.refusal? id <;> simp

theorem detach_apply (tree : Tree) (id : NodeId)
    : (detach id).apply tree
      = match tree.refusal? id, tree.parent? id with
        | some error, _ => (.error error, tree)
        | none, none => (.error (.shape id .noParent), tree)
        | none, some parent => (.ok (), tree.cut parent id) := by
  rw [detach, apply_bind, ensureNode_apply]
  cases tree.refusal? id with
  | some error => simp
  | none =>
      simp only [apply_bind, apply_current]
      cases tree.parent? id with
      | none => simp
      | some parent => rfl

/-- Forgetting the parents of some nodes one after the other never fails. -/
theorem forget_apply (ids : List NodeId) (tree : Tree)
    : Edit.apply
        (forIn ids PUnit.unit fun child _ => do
          modifyNode child fun node => { node with parent := none }
          pure (.yield PUnit.unit))
        tree
      = (.ok ⟨⟩, tree.orphan ids) := by
  induction ids generalizing tree with
  | nil => rfl
  | cons id rest ih =>
      rw [List.forIn_cons, apply_bind, apply_bind, modifyNode_apply]
      exact ih _

theorem replaceWithText_apply (tree : Tree) (id : NodeId) (text : String)
    : (replaceWithText id text).apply tree
      = match tree.refusal? id with
        | some error => (.error error, tree)
        | none => (.ok (), tree.fragment id text) := by
  rw [replaceWithText, apply_bind, ensureNode_apply]
  cases tree.refusal? id with
  | some error => simp
  | none =>
      simp only [apply_bind, apply_current, forget_apply]
      rfl

theorem setRole_apply (tree : Tree) (id : NodeId) (role : Role)
    : (setRole id role).apply tree
      = match tree.refusal? id with
        | some error => (.error error, tree)
        | none => (.ok (), tree.reword id ({ · with role })) :=
  reword_apply tree id _

theorem addOutline_apply (tree : Tree) (outline : Outline)
    : (addOutline outline).apply tree
      = if tree.writable then (.ok tree.size, tree.grow outline) else (.error .readOnly, tree) := by
  rw [addOutline, apply_bind, ensureWritable_apply]
  by_cases writable : tree.writable
  · rw [if_pos writable, if_pos writable]
    rfl
  · rw [if_neg writable, if_neg writable]

theorem insertChild_apply (tree : Tree) (parent : NodeId) (index : Nat) (child : NodeId)
    : (insertChild parent index child).apply tree
      = match tree.refusal? parent, tree.refusal? child with
        | some error, _ => (.error error, tree)
        | none, some error => (.error error, tree)
        | none, none =>
            if (tree.parent? child).isSome ∨ child = tree.root then
              (.error (.shape child .alreadyAttached), tree)
            else if parent = child ∨ tree.isAncestor child parent then
              (.error (.shape child .cycle), tree)
            else
              (.ok (), tree.hang parent index child) := by
  rw [insertChild, apply_bind, ensureNode_apply]
  cases tree.refusal? parent with
  | some error => simp
  | none =>
      simp only [apply_bind, ensureNode_apply]
      cases tree.refusal? child with
      | some error => simp
      | none =>
          simp only [apply_current]
          by_cases attached : (tree.parent? child).isSome ∨ child = tree.root
          · rw [if_pos attached, if_pos attached]
            rfl
          · rw [if_neg attached, if_neg attached]
            by_cases cyclic : parent = child ∨ tree.isAncestor child parent
            · rw [if_pos cyclic, if_pos cyclic]
              rfl
            · rw [if_neg cyclic, if_neg cyclic]
              rfl

theorem appendChild_apply (tree : Tree) (parent child : NodeId)
    : (appendChild parent child).apply tree
      = (insertChild parent (tree.childIds parent).length child).apply tree := by
  rw [appendChild, apply_bind, apply_current]

end Edit
end TreeLint
