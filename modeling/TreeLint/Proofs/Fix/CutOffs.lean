import TreeLint.Proofs.Fix.Declarations
import TreeLint.Proofs.Fix.InnerClasses
import TreeLint.Proofs.Fix.Removals
import TreeLint.Proofs.Fix.Replacements
import TreeLint.Proofs.Fix.Variables
import TreeLint.Proofs.Tree.Pruning

/-! What the fixes cut off. Text in the place of an expression cuts off its parts, and a name for an
anonymous class cuts off what else there was to its creation. Main result: a fix that is applied cuts
off what it is said to cut off, and leaves every other node attached that was.
-/

namespace TreeLint

open Relation

namespace Tree

variable {tree : Tree}

-----------------------------------------------------------------------------------------
-- Bounds and anonymous classes
-----------------------------------------------------------------------------------------

/-- Cutting off some children of a node cuts off what is at or below them. -/
theorem Coherent.cutAll_pruned (coherent : tree.Coherent) {parent : NodeId} {ids : List NodeId}
    (below : ∀ id ∈ ids, tree.parent? id = some parent)
    : tree.Pruned (fun id => ∃ top ∈ ids, ReflTransGen tree.IsParent top id)
        (tree.cutAll parent ids) where
  root := cutAll_root tree parent ids
  grows := Nat.le_of_eq (cutAll_size tree parent ids).symm
  rootKept := by
    rintro ⟨top, member, way⟩
    rcases reflTransGen_iff_eq_or_transGen.mp way with same | above
    · exact coherent.ne_root (below top member) same.symm
    · exact coherent.not_above_root above
  settles id _ := by
    by_cases member : id ∈ ids
    · refine .cutOff (not_attached_of_top ?_ ?_) ⟨id, member, .refl⟩
      · rw [cutAll_parent?, if_pos member]
      · rw [cutAll_root]
        exact coherent.ne_root (below id member)
    · refine .kept (by rw [cutAll_parent?, if_neg member]) fun upper up => ?_
      refine exists_congr fun top => and_congr_right fun among => reach_iff_of_parent up ?_
      exact fun same => member (same ▸ among)

/-- The node is a member of an anonymous class that moves with it to a named one: it hangs below the
class and is not its base.
-/
def MovesFrom (tree : Tree) (anonymous member : NodeId) : Prop :=
  tree.parent? member = some anonymous
  ∧ ∃ content, tree.content? member = some content ∧ content.role ≠ .baseClass

/-- The node is part of the creation of an anonymous class and does not move away with a member. The
members only get away if the creation is not itself the class around.
-/
def LostWith (tree : Tree) (anonymous creation id : NodeId) : Prop :=
  tree.Above creation id
  ∧ ¬(tree.isClassAt creation = false
    ∧ ∃ member, tree.MovesFrom anonymous member ∧ ReflTransGen tree.IsParent member id)

/-- The nodes that the fix moves, as the arena names them. -/
theorem Linked.mem_movedMembers_iff (linked : tree.Linked) {anonymous : Subtree}
    {member : NodeId} (shown : tree.subtree? anonymous.id = some anonymous)
    : member ∈ Fix.movedMembers anonymous ↔ tree.MovesFrom anonymous.id member := by
  have listed : Fix.movedMembers anonymous = _ :=
    filter_children shown fun content => content.role != .baseClass
  rw [listed, List.mem_filter, linked.agree, MovesFrom, Option.any_eq_true]
  simp only [bne_iff_ne]

/-- The class around an anonymous class is what created it if that is a class. -/
theorem Linked.enclosingClass?_eq_iff (linked : tree.Linked) {anonymous creation outer : NodeId}
    (created : tree.parent? anonymous = some creation)
    (around : tree.enclosingClass? anonymous = some outer)
    : outer = creation ↔ tree.isClassAt creation = true := by
  rw [enclosingClass?_eq, linked.ancestors_eq, created] at around
  constructor
  · rintro rfl
    exact List.find?_some around
  · intro isClass
    rw [List.find?_cons_of_pos isClass] at around
    exact (Option.some.inj around).symm

section Creation

variable {anonymous creation : NodeId} (linked : tree.Linked)
  (created : tree.parent? anonymous = some creation)

include created

/-- A member is lost with the creation if that is the class around. -/
theorem MovesFrom.lostWith_iff {member : NodeId} (moves : tree.MovesFrom anonymous member)
    : tree.LostWith anonymous creation member ↔ tree.isClassAt creation = true := by
  have above : tree.Above creation member := .tail (.single created) moves.1
  have away : ∃ other, tree.MovesFrom anonymous other ∧ ReflTransGen tree.IsParent other member :=
    ⟨member, moves, .refl⟩
  rw [LostWith, and_iff_right above, and_iff_left away, Bool.not_eq_false]

include linked

/-- What hangs below the creation itself is lost. -/
theorem Linked.lostWith_part {part : NodeId} (below : tree.parent? part = some creation)
    : tree.LostWith anonymous creation part := by
  refine ⟨.single below, fun ⟨_, member, moves, way⟩ => ?_⟩
  -- The creation is above the members, so none of them is above it.
  have above : tree.Above creation member := .tail (.single created) moves.1
  rcases reflTransGen_iff_eq_or_transGen.mp way with rfl | higher
  · cases moves.1.symm.trans below
    exact linked.acyclic _ (.single created)
  · rcases (above_iff_of_parent below).mp higher with rfl | higher
    · exact linked.acyclic _ above
    · exact linked.acyclic _ (above.trans higher)

omit linked created

/-- Any other node is lost as its parent is. -/
theorem lostWith_iff_of_parent {id upper : NodeId} (up : tree.parent? id = some upper)
    (other : upper ≠ creation) (stays : ¬tree.MovesFrom anonymous id)
    : tree.LostWith anonymous creation id ↔ tree.LostWith anonymous creation upper := by
  rw [LostWith, LostWith, above_iff_of_parent up, or_iff_right other.symm]
  refine and_congr_right fun _ => not_congr (and_congr_right fun _ => exists_congr fun member => ?_)
  refine and_congr_right fun moves => reach_iff_of_parent up ?_
  rintro rfl
  exact stays moves

end Creation

section Moved

variable {filled : Tree} {anonymous : Subtree} {creation outer : NodeId} {outline : Outline}
  (text : String) (coherent : tree.Coherent)
  (created : tree.parent? anonymous.id = some creation)
  (moved : (tree.grow outline).MovedInto anonymous.id tree.size (Fix.movedMembers anonymous) filled)
  (hangable : filled.Hangable outer tree.size)

include coherent created moved hangable

/-- Once the members have moved to a new class in the class around and the creation is replaced by
text, the new class has that class for its parent unless it is the creation, the members have the
new class, and what hung below the creation has none.
-/
theorem Coherent.parent?_of_moved
    : let after :=
        (filled.hang outer (filled.childIds outer).length tree.size).fragment creation text
      after.parent? tree.size = (if outer = creation then none else some outer)
      ∧ ∀ id < tree.size,
          after.parent? id
            = if id ∈ Fix.movedMembers anonymous then some tree.size
              else if tree.parent? id = some creation then none
              else tree.parent? id := by
  intro after
  have afterUp (id : NodeId) : after.parent? id = _ := fragment_parent? _ creation text id
  simp only [(moved.coherent.hang hangable _).agree, hang_parent? hangable.childPresent] at afterUp
  refine ⟨?_, fun id old => ?_⟩
  · rw [afterUp, if_pos rfl]
    simp only [Option.some.injEq]
  · have apart : some tree.size ≠ some creation := fun same =>
      Nat.ne_of_gt (coherent.parent_lt created) (Option.some.inj same)
    rw [afterUp, if_neg (Nat.ne_of_lt old), moved.parents, grow_parent?_of_lt old]
    by_cases member : id ∈ Fix.movedMembers anonymous
    · rw [if_pos member, if_pos member, if_neg apart]
    · rw [if_neg member, if_neg member]

/-- What was below the creation and has not moved with the members is cut off then. -/
theorem Coherent.pruned_of_moved (shown : tree.subtree? anonymous.id = some anonymous)
    (around : tree.enclosingClass? anonymous.id = some outer)
    : tree.Pruned (tree.LostWith anonymous.id creation)
        ((filled.hang outer (filled.childIds outer).length tree.size).fragment creation text) := by
  let after := (filled.hang outer (filled.childIds outer).length tree.size).fragment creation text
  have nearest := coherent.enclosingClass?_eq_iff created around
  have root : after.root = tree.root := by
    rw [fragment_root, hang_root, moved.root, grow_root]
  obtain ⟨innerUp, oldUp⟩ := coherent.parent?_of_moved text created moved hangable
  refine ⟨root, ?_, fun lost => coherent.not_above_root lost.1, fun id old => ?_⟩
  · rw [fragment_size, hang_size, moved.size]
    exact Nat.le_of_lt (tree.size_lt_grow outline)
  have up := oldUp id old
  by_cases member : id ∈ Fix.movedMembers anonymous
  · have moves := (coherent.mem_movedMembers_iff shown).mp member
    rw [if_pos member] at up
    by_cases isOuter : outer = creation
    · rw [if_pos isOuter] at innerUp
      have loose : ¬after.Attached tree.size := by
        refine not_attached_of_top innerUp ?_
        rw [root]
        exact Nat.ne_of_gt (contains_iff.mp coherent.rootPresent)
      refine .cutOff (fun attached => ?_) ((moves.lostWith_iff created).mpr (nearest.mp isOuter))
      obtain ⟨upper, link, above⟩ := attached.exists_parent (root ▸ coherent.ne_root moves.1)
      cases link.symm.trans up
      exact loose above
    · rw [if_neg isOuter] at innerUp
      have outerAbove := Fix.enclosingClass?_above coherent.toLinked around
      have higher : tree.Above outer creation :=
        ((above_iff_of_parent created).mp outerAbove).resolve_left isOuter
      refine .moved outer (outerAbove.tail moves.1) (.tail (.single innerUp) up) ?_
      rw [moves.lostWith_iff created, ← nearest]
      exact iff_of_false isOuter fun lost => coherent.acyclic _ (lost.1.trans higher)
  · have stays := (coherent.mem_movedMembers_iff shown).not.mp member
    rw [if_neg member] at up
    by_cases part : tree.parent? id = some creation
    · rw [if_pos part] at up
      exact .cutOff (not_attached_of_top up (root ▸ coherent.ne_root part))
        (coherent.lostWith_part created part)
    · rw [if_neg part] at up
      refine .kept up fun upper link => lostWith_iff_of_parent link ?_ stays
      rintro rfl
      exact part link

end Moved

/-- A receiver that gets a name stays below the block of its call. -/
theorem Introduces.pruned {tree : Tree} {call receiver block : NodeId} {index : Nat}
    {name typeName : String} (introduces : tree.Introduces call receiver block)
    (linked : tree.Linked)
    : tree.Pruned (fun _ => False)
        (tree.withVariable call receiver block index name typeName) := by
  refine (introduces.frame linked).pruned fun id member => ⟨block, ?_, ?_⟩
  · rw [List.mem_singleton.mp member]
    exact introduces.around.tail (introduces.below linked)
  · rw [List.mem_singleton.mp member]
    exact introduces.above_receiver linked

end Tree

namespace Fix

open TreeLint.Tree

variable {tree after : Tree} {anchor : NodeId}

-----------------------------------------------------------------------------------------
-- What each fix cuts off
-----------------------------------------------------------------------------------------

/-- The node is cut off when the fix is applied at the anchor: text cuts off what is below it, a
bound that says nothing goes with what is below it, and the name for an anonymous class costs what
else there was to its creation.
-/
def CutsOff (fix : Fix) (tree : Tree) (anchor id : NodeId) : Prop :=
  match fix with
  | .simplify | .flipEquals => tree.Above anchor id
  | .removeObjectBound =>
      ∃ bound,
        (tree.parent? bound = some anchor
          ∧ ∃ content, tree.content? bound = some content ∧ content.NamesObject)
        ∧ ReflTransGen tree.IsParent bound id
  | .nameInnerClass =>
      ∃ anonymous creation,
        tree.parent? anchor = some anonymous
        ∧ tree.parent? anonymous = some creation
        ∧ tree.LostWith anonymous creation id
  | .removeModifier _ | .splitDeclaration | .introduceVariable | .rename _ => False

/-- Variables of one declaration that get declarations of their own stay below its block. -/
theorem splitDeclaration_pruned (coherent : tree.Coherent)
    (succeeded : (splitDeclaration.applyAt anchor).apply tree = (.ok (), after))
    : tree.Pruned (fun _ => False) after := by
  obtain ⟨node, shown, ⟨_, splits⟩ | ⟨isField, writes⟩⟩ := splitDeclaration_cases succeeded
  · obtain ⟨statement, block, index, _, _, each, distinct, moves⟩ :=
      splitStatement_moves coherent splits
    have apart := declareApart_succeeded coherent each distinct (Nat.succ_pos index) moves
    refine apart.frame.pruned fun id member => ⟨block, ?_, ?_⟩
    · have declaredIn := each id member
      exact .tail (.single declaredIn.inBlock) declaredIn.below
    · obtain ⟨declaration, _, declared⟩ :=
        declareApart_declared coherent each distinct moves id member
      exact .tail (.single declared.inBlock) declared.below
  · obtain rfl := subtree?_id shown
    obtain ⟨apart, _⟩ := writeFieldType_succeeded coherent shown isField writes
    exact apart.frame.pruned fun id member => nomatch member

/-- The receiver that gets a name stays below the block of its call. -/
theorem introduceVariable_pruned (coherent : tree.Coherent)
    (succeeded : (introduceVariable.applyAt anchor).apply tree = (.ok (), after))
    : tree.Pruned (fun _ => False) after := by
  obtain ⟨_, _, _, _, _, introduces, rfl⟩ := introduceVariable_succeeded coherent succeeded
  exact introduces.pruned coherent.toLinked

/-- The bounds of a type parameter that say nothing are cut off. -/
theorem removeObjectBound_pruned (coherent : tree.Coherent)
    (succeeded : (removeObjectBound.applyAt anchor).apply tree = (.ok (), after))
    : tree.Pruned (removeObjectBound.CutsOff tree anchor) after := by
  obtain ⟨parameter, shown, rfl, siblings⟩ :=
    removeObjectBound_succeeded coherent.toLinked succeeded
  obtain rfl := subtree?_id shown
  have pruned := coherent.cutAll_pruned siblings.below
  simp only [mem_objectBounds_ids shown, coherent.agree] at pruned
  exact pruned

/-- What is left of the creation of an anonymous class that gets a name is cut off. -/
theorem nameInnerClass_pruned (coherent : tree.Coherent)
    (succeeded : (nameInnerClass.applyAt anchor).apply tree = (.ok (), after))
    : tree.Pruned (nameInnerClass.CutsOff tree anchor) after := by
  obtain ⟨anonymous, creation, outer, _, _, text, filled, up, shown, _, created, around, _, moved,
    hangable, rfl⟩ := nameInnerClass_moves coherent succeeded
  have pruned := coherent.pruned_of_moved text created moved hangable shown around
  have same : tree.LostWith anonymous.id creation = nameInnerClass.CutsOff tree anchor := by
    funext id
    refine propext ⟨fun lost => ⟨_, _, up, created, lost⟩, ?_⟩
    rintro ⟨other, source, isUp, isSource, lost⟩
    cases up.symm.trans isUp
    cases created.symm.trans isSource
    exact lost
  rwa [same] at pruned

/-- A fix that is applied cuts off what it is said to cut off, and every other node that was
attached stays so.
-/
theorem applyAt_pruned {fix : Fix} (coherent : tree.Coherent)
    (succeeded : (fix.applyAt anchor).apply tree = (.ok (), after))
    : tree.Pruned (fix.CutsOff tree anchor) after := by
  cases fix with
  | removeModifier modifier =>
      obtain rfl := removeModifier_succeeded succeeded
      exact (tree.reword_frame anchor _).pruned fun id member => nomatch member
  | nameInnerClass => exact nameInnerClass_pruned coherent succeeded
  | splitDeclaration => exact splitDeclaration_pruned coherent succeeded
  | introduceVariable => exact introduceVariable_pruned coherent succeeded
  | simplify =>
      obtain ⟨_, text, _, _, rfl⟩ := replaceAt_succeeded succeeded
      exact coherent.fragment_pruned anchor text
  | removeObjectBound => exact removeObjectBound_pruned coherent succeeded
  | flipEquals =>
      obtain ⟨_, text, _, _, rfl⟩ := replaceAt_succeeded succeeded
      exact coherent.fragment_pruned anchor text
  | rename name =>
      obtain ⟨_, rfl⟩ := Edit.reword_succeeded succeeded
      exact (tree.reword_frame anchor _).pruned fun id member => nomatch member

end Fix

end TreeLint
