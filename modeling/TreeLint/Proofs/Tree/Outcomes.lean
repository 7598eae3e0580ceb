import Mathlib.Data.List.InsertIdx
import TreeLint.Proofs.Tree.Contents
import TreeLint.Proofs.Tree.Frames

/-! What is known of an edit that succeeded: it was allowed, and the tree that it leaves is a
certain change of the tree it was given. An edit in parts succeeded in each of them.
-/

namespace TreeLint

/-- A list with an item put in at a place is what was before the place, the item, and the rest, by
induction on the place.
-/
theorem insertIdx_eq_append {items : List α} {index : Nat} (present : index ≤ items.length)
    (item : α)
    : items.insertIdx index item = items.take index ++ item :: items.drop index := by
  induction index generalizing items with
  | zero => simp
  | succ index ih =>
      cases items with
      | nil => exact absurd present (by simp)
      | cons head rest =>
          rw [List.insertIdx_succ_cons, ih (by simpa using present)]
          rfl

namespace Edit

-----------------------------------------------------------------------------------------
-- Parts of an edit
-----------------------------------------------------------------------------------------

/-- What failed did not succeed. -/
theorem failed_ne_succeeded {error : FixError} {value : α} {tree after : Tree}
    : ((.error error, tree) : Except FixError α × Tree) ≠ (.ok value, after) :=
  fun same => nomatch congrArg Prod.fst same

/-- An edit that succeeded did its first part, and then the rest where that one ended. -/
theorem bind_succeeded {first : Edit α} {next : α → Edit β} {tree after : Tree} {value : β}
    (succeeded : (first >>= next).apply tree = (.ok value, after))
    : ∃ part middle,
        first.apply tree = (.ok part, middle)
        ∧ (next part).apply middle = (.ok value, after) := by
  rw [apply_bind] at succeeded
  cases outcome : first.apply tree with
  | mk result middle =>
      rw [outcome] at succeeded
      cases result with
      | ok part => exact ⟨part, middle, rfl, succeeded⟩
      | error error => exact absurd succeeded failed_ne_succeeded

/-- An edit that first asks whether it may was allowed, and the rest succeeded. -/
theorem ensureNode_succeeded {id : NodeId} {next : Unit → Edit β} {tree after : Tree} {value : β}
    (succeeded : (ensureNode id >>= next).apply tree = (.ok value, after))
    : tree.writable ∧ id < tree.size ∧ (next ()).apply tree = (.ok value, after) := by
  obtain ⟨_, middle, allowed, rest⟩ := bind_succeeded succeeded
  rw [ensureNode_apply] at allowed
  cases known : tree.refusal? id with
  | some error =>
      rw [known] at allowed
      exact absurd allowed failed_ne_succeeded
  | none =>
      rw [known] at allowed
      cases allowed
      obtain ⟨writable, present⟩ := Tree.refusal?_eq_none_iff.mp known
      exact ⟨writable, present, rest⟩

/-- What an edit required was there, and the rest succeeded. -/
theorem require_succeeded {id : NodeId} {fault : ShapeFault} {wanted : Option α}
    {next : α → Edit β} {tree after : Tree} {value : β}
    (succeeded : (require id fault wanted >>= next).apply tree = (.ok value, after))
    : ∃ part, wanted = some part ∧ (next part).apply tree = (.ok value, after) := by
  obtain ⟨part, middle, there, rest⟩ := bind_succeeded succeeded
  cases wanted with
  | none => exact absurd there failed_ne_succeeded
  | some needed =>
      cases there
      exact ⟨_, rfl, rest⟩

/-- An edit that looks at the tree goes on with that tree. -/
theorem current_succeeded {next : Tree → Edit β} {tree after : Tree} {value : β}
    (succeeded : (current >>= next).apply tree = (.ok value, after))
    : (next tree).apply tree = (.ok value, after) := by
  rwa [apply_bind, apply_current] at succeeded

-----------------------------------------------------------------------------------------
-- Single edits
-----------------------------------------------------------------------------------------

/-- A change of what a node says that succeeded was allowed. -/
theorem reword_succeeded {tree after : Tree} {id : NodeId} {f : Content → Content}
    (succeeded : (do ensureNode id; modifyContent id f : Edit Unit).apply tree = (.ok (), after))
    : id < tree.size ∧ after = tree.reword id f := by
  obtain ⟨_, present, rest⟩ := ensureNode_succeeded succeeded
  exact ⟨present, (congrArg Prod.snd rest).symm⟩

theorem replaceWithText_succeeded {tree after : Tree} {id : NodeId} {text : String}
    (succeeded : (replaceWithText id text).apply tree = (.ok (), after))
    : after = tree.fragment id text := by
  rw [replaceWithText_apply] at succeeded
  cases known : tree.refusal? id with
  | some error =>
      rw [known] at succeeded
      exact absurd succeeded failed_ne_succeeded
  | none =>
      rw [known] at succeeded
      exact (congrArg Prod.snd succeeded).symm

/-- A node that was cut off had a parent. -/
theorem detach_succeeded {tree after : Tree} {id : NodeId}
    (succeeded : (detach id).apply tree = (.ok (), after))
    : ∃ parent, tree.parent? id = some parent ∧ after = tree.cut parent id := by
  rw [detach_apply] at succeeded
  cases known : tree.refusal? id with
  | some error =>
      rw [known] at succeeded
      exact absurd succeeded failed_ne_succeeded
  | none =>
      cases up : tree.parent? id with
      | none =>
          rw [known, up] at succeeded
          exact absurd succeeded failed_ne_succeeded
      | some parent =>
          rw [known, up] at succeeded
          exact ⟨parent, rfl, (congrArg Prod.snd succeeded).symm⟩

/-- The topmost of the nodes added has the number that the arena had as its size. -/
theorem addOutline_succeeded {tree after : Tree} {outline : Outline} {id : NodeId}
    (succeeded : (addOutline outline).apply tree = (.ok id, after))
    : id = tree.size ∧ after = tree.grow outline := by
  rw [addOutline_apply] at succeeded
  split at succeeded
  · cases succeeded
    exact ⟨rfl, rfl⟩
  · exact absurd succeeded failed_ne_succeeded

/-- A node that was hung below another one could be hung there. -/
theorem insertChild_succeeded {tree after : Tree} (linked : tree.Linked) {parent child : NodeId}
    {index : Nat} (succeeded : (insertChild parent index child).apply tree = (.ok (), after))
    : tree.Hangable parent child ∧ after = tree.hang parent index child := by
  rw [insertChild_apply] at succeeded
  cases parentKnown : tree.refusal? parent with
  | some error =>
      rw [parentKnown] at succeeded
      exact absurd succeeded failed_ne_succeeded
  | none =>
      cases childKnown : tree.refusal? child with
      | some error =>
          rw [parentKnown, childKnown] at succeeded
          exact absurd succeeded failed_ne_succeeded
      | none =>
          rw [parentKnown, childKnown] at succeeded
          simp only at succeeded
          split at succeeded
          · exact absurd succeeded failed_ne_succeeded
          · next detached =>
              split at succeeded
              · exact absurd succeeded failed_ne_succeeded
              · next free =>
                  exact ⟨insertChild_hangable linked parentKnown childKnown detached free,
                    (congrArg Prod.snd succeeded).symm⟩

/-- A new node hangs where it was to be hung. -/
theorem hangNew_succeeded {tree after : Tree} (coherent : tree.Coherent) {parent : NodeId}
    {outline : Outline} {index : Nat}
    (succeeded
      : (do insertChild parent index (← addOutline outline) : Edit Unit).apply tree
        = (.ok (), after))
    : after = (tree.grow outline).hang parent index tree.size ∧ after.Coherent := by
  obtain ⟨new, grown, grows, hangs⟩ := bind_succeeded succeeded
  obtain ⟨rfl, rfl⟩ := addOutline_succeeded grows
  have grownCoherent := coherent.grow outline
  obtain ⟨hangable, rfl⟩ := insertChild_succeeded grownCoherent.toLinked hangs
  exact ⟨rfl, grownCoherent.hang hangable index⟩

end Edit

end TreeLint
