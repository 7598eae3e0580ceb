import TreeLint.Proofs.Fix.CutOffs

/-! What the fix that names an anonymous class makes of a tree, node by node: where the members come
to stand, where the new class does, and what is no longer there. Main result: of a creation with
`new`, the fix keeps all but the anonymous class itself and its bases exactly if the anonymous class
is all that hangs below the creation. Arguments of the constructor are dropped.
-/

namespace TreeLint

open Relation

namespace Tree

variable {tree after : Tree} {anonymous creation outer : NodeId}

-----------------------------------------------------------------------------------------
-- The parts of a creation
-----------------------------------------------------------------------------------------

/-- The members of an anonymous class that move when it gets a name: all of its children but the
bases, in their order.
-/
def movingMembers (tree : Tree) (anonymous : NodeId) : List NodeId :=
  (tree.childIds anonymous).filter fun child => (tree.content? child).any (·.role != .baseClass)

/-- The node is what an anonymous class is left with when its members move: the class itself, or a
base of it with what is below.
-/
def LeftBehind (tree : Tree) (anonymous id : NodeId) : Prop :=
  id = anonymous
  ∨ ∃ base content,
      tree.parent? base = some anonymous
      ∧ tree.content? base = some content
      ∧ content.role = .baseClass
      ∧ ReflTransGen tree.IsParent base id

/-- The node is in another part of the creation than its anonymous class, say in an argument. -/
def BesideClass (tree : Tree) (anonymous creation id : NodeId) : Prop :=
  ∃ part,
    tree.parent? part = some creation
    ∧ part ≠ anonymous
    ∧ ReflTransGen tree.IsParent part id

/-- The nodes that the fix moves, as the arena names them. -/
theorem movedMembers_eq {anonymous : Subtree}
    (shown : tree.subtree? anonymous.id = some anonymous)
    : Fix.movedMembers anonymous = tree.movingMembers anonymous.id :=
  filter_children shown fun content => content.role != .baseClass

/-- What an anonymous class is left with is at or below the class. -/
theorem LeftBehind.below {id : NodeId} (left : tree.LeftBehind anonymous id)
    : ReflTransGen tree.IsParent anonymous id := by
  rcases left with rfl | ⟨base, _, up, _, _, way⟩
  · exact .refl
  · exact .head up way

/-- What is in another part of the creation is not at or below the anonymous class. -/
theorem BesideClass.not_below (linked : tree.Linked)
    (created : tree.parent? anonymous = some creation) {id : NodeId}
    (beside : tree.BesideClass anonymous creation id)
    : ¬ReflTransGen tree.IsParent anonymous id := by
  obtain ⟨part, up, other, way⟩ := beside
  exact linked.siblings_disjoint up created other way

/-- The class is the only child of the creation exactly if every part of that is the class. -/
theorem Linked.childIds_eq_singleton_iff (linked : tree.Linked)
    (created : tree.parent? anonymous = some creation)
    : tree.childIds creation = [anonymous]
      ↔ ∀ part, tree.parent? part = some creation → part = anonymous := by
  constructor
  · intro only part up
    have member := linked.agree.mpr up
    rw [only] at member
    exact List.mem_singleton.mp member
  · intro only
    have all : ∀ part ∈ tree.childIds creation, part = anonymous := fun part member =>
      only part (linked.agree.mp member)
    have same := List.eq_replicate_iff.mpr ⟨rfl, all⟩
    have unique := linked.unique creation
    have present : tree.childIds creation ≠ [] := List.ne_nil_of_mem (linked.agree.mpr created)
    rw [same, List.nodup_replicate] at unique
    have one : (tree.childIds creation).length = 1 :=
      Nat.le_antisymm unique (List.length_pos_iff.mpr present)
    rw [same, one]
    rfl

/-- What is lost with a creation that is not a class: what the anonymous class is left with, and the
other parts of the creation.
-/
theorem Linked.lostWith_iff (linked : tree.Linked)
    (created : tree.parent? anonymous = some creation) (noClass : tree.isClassAt creation = false)
    (id : NodeId)
    : tree.LostWith anonymous creation id
      ↔ tree.LeftBehind anonymous id ∨ tree.BesideClass anonymous creation id := by
  rw [LostWith, and_iff_right noClass]
  constructor
  · rintro ⟨above, stays⟩
    obtain ⟨part, up, way⟩ := TransGen.head'_iff.mp above
    by_cases isClass : part = anonymous
    · subst isClass
      rcases reflTransGen_iff_eq_or_transGen.mp way with same | below
      · exact .inl (.inl same)
      · obtain ⟨child, link, rest⟩ := TransGen.head'_iff.mp below
        obtain ⟨content, known⟩ := content?_exists (lt_size_of_parent? link)
        refine .inl (.inr ⟨child, content, link, known, ?_, rest⟩)
        by_contra isMember
        exact stays ⟨child, ⟨link, content, known, isMember⟩, rest⟩
    · exact .inr ⟨part, up, isClass, way⟩
  · rintro (left | beside)
    · refine ⟨TransGen.head' created left.below, ?_⟩
      rintro ⟨member, ⟨link, _, known, isMember⟩, way⟩
      rcases left with rfl | ⟨base, content, up, baseKnown, isBase, baseWay⟩
      · exact linked.acyclic _ (TransGen.head' link way)
      · by_cases same : member = base
        · subst same
          cases known.symm.trans baseKnown
          exact isMember isBase
        · exact linked.siblings_disjoint link up same way baseWay
    · have apart := beside.not_below linked created
      obtain ⟨part, up, _, way⟩ := beside
      refine ⟨TransGen.head' up way, ?_⟩
      rintro ⟨member, moves, below⟩
      exact apart (.head moves.1 below)

/-- The class around an anonymous class is above what created it, unless that is a class itself. -/
theorem Linked.enclosingClass_above_creation (linked : tree.Linked)
    (created : tree.parent? anonymous = some creation) (noClass : tree.isClassAt creation = false)
    (around : tree.enclosingClass? anonymous = some outer)
    : tree.Above outer creation := by
  have above := Fix.enclosingClass?_above linked around
  rcases (above_iff_of_parent created).mp above with same | higher
  · have isClass := (linked.enclosingClass?_eq_iff created around).mp same
    exact absurd (noClass.symm.trans isClass) Bool.false_ne_true
  · exact higher

-----------------------------------------------------------------------------------------
-- The tree with the named class
-----------------------------------------------------------------------------------------

/-- The second tree is the first with a named class in the place of an anonymous one. The members
have moved to the new class, which comes last in the class around, and the creation is a text.
-/
structure ClassMade (tree : Tree) (anonymous creation outer : NodeId) (name base : String)
    (after : Tree)
    : Prop where
  root : after.root = tree.root
  size : after.size = tree.size + 2
  /-- The nodes attached afterwards are the two new ones and those attached before, but for what the
  anonymous class is left with and the other parts of the creation. -/
  attached
    : ∀ id,
        after.Attached id
        ↔ (tree.Attached id
            ∧ ¬tree.LeftBehind anonymous id
            ∧ ¬tree.BesideClass anonymous creation id)
          ∨ (tree.size ≤ id ∧ id < tree.size + 2)
  contents : ∀ id < tree.size, id ≠ creation → after.content? id = tree.content? id
  creationText
    : after.content? creation
      = (tree.content? creation).map (·.asText ("new " ++ name ++ "()"))
  creationChildren : after.childIds creation = []
  innerContent
    : after.content? tree.size
      = some ((Outline.namedClass name).withModifier .privateAccess).content
  innerParent : after.parent? tree.size = some outer
  /-- The members come behind the base of the new class, in their old order. -/
  innerChildren : after.childIds tree.size = (tree.size + 1) :: tree.movingMembers anonymous
  extendedContent
    : after.content? (tree.size + 1) = some ((Outline.reference base).withRole .extended).content
  extendedChildren : after.childIds (tree.size + 1) = []
  /-- The new class comes last in the class around. -/
  lastInOuter : after.childIds outer = tree.childIds outer ++ [tree.size]
  bases
    : after.childIds anonymous
      = (tree.childIds anonymous).filter (!(tree.movingMembers anonymous).contains ·)
  /-- All other nodes have the children that they had. -/
  children
    : ∀ id < tree.size,
        id ∉ [anonymous, creation, outer] → after.childIds id = tree.childIds id

section Filled

variable {filled : Tree} {anonymous : Subtree} {name base text : String}

/-- What the nodes say at the end: the creation is a text, and the others say what they did. -/
theorem MovedInto.content?_at_end
    (moved
      : (tree.grow (Fix.innerClassOutline name base)).MovedInto anonymous.id tree.size
          (Fix.movedMembers anonymous) filled) (id : NodeId)
    : let after :=
        (filled.hang outer (filled.childIds outer).length tree.size).fragment creation text
      after.content? id
        = if id = creation then
            ((tree.grow (Fix.innerClassOutline name base)).content? id).map (·.asText text)
          else
            (tree.grow (Fix.innerClassOutline name base)).content? id := by
  intro after
  rw [fragment_content?, hang_content?, moved.contents]

/-- What hangs below the nodes at the end: nothing below the creation, and the new class last in the
class around.
-/
theorem Hangable.childIds_at_end (hangable : filled.Hangable outer tree.size) (id : NodeId)
    : let after :=
        (filled.hang outer (filled.childIds outer).length tree.size).fragment creation text
      after.childIds id
        = if id = creation then []
          else if id = outer then filled.childIds id ++ [tree.size]
          else filled.childIds id := by
  intro after
  rw [fragment_childIds, hang_childIds hangable.parentPresent]
  split
  · rfl
  · split
    · next same => rw [same, Nat.min_self, List.insertIdx_length_self]
    · rfl

/-- The new class hangs in a class that is attached and stays so, and its base hangs below it. -/
theorem Coherent.new_attached (coherent : tree.Coherent) {lost : NodeId → Prop}
    (pruned : tree.Pruned lost after) (size : after.size = tree.size + 2)
    (outerAttached : tree.Attached outer) (kept : ¬lost outer)
    (innerUp : after.parent? tree.size = some outer)
    (extendedUp : after.parent? (tree.size + 1) = some tree.size) (id : NodeId)
    (least : tree.size ≤ id) (inside : id < after.size)
    : after.Attached id := by
  have inner : after.Attached tree.size :=
    (pruned.attached_after coherent outerAttached kept).tail innerUp
  rw [size] at inside
  rcases Nat.eq_or_lt_of_le least with rfl | later
  · exact inner
  · obtain rfl : id = tree.size + 1 := Nat.le_antisymm (Nat.le_of_lt_succ inside) later
    exact inner.tail extendedUp

/-- Once the members have moved, the new class hangs in the class around and the creation is a text,
the class is made.
-/
theorem Coherent.classMade (coherent : tree.Coherent)
    (shown : tree.subtree? anonymous.id = some anonymous)
    (created : tree.parent? anonymous.id = some creation)
    (noClass : tree.isClassAt creation = false)
    (around : tree.enclosingClass? anonymous.id = some outer)
    (attached : tree.Attached creation)
    (fills
      : (Fix.moveInto tree.size (Fix.movedMembers anonymous)).apply
          (tree.grow (Fix.innerClassOutline name base))
        = (.ok (), filled))
    (hangable : filled.Hangable outer tree.size)
    : tree.ClassMade anonymous.id creation outer name base
        ((filled.hang outer (filled.childIds outer).length tree.size).fragment creation
          ("new " ++ name ++ "()")) := by
  let after :=
    (filled.hang outer (filled.childIds outer).length tree.size).fragment creation
      ("new " ++ name ++ "()")
  have linked := coherent.toLinked
  have moved := Fix.moveMembers_succeeded shown coherent fills
  obtain ⟨innerIds, restIds⟩ := Fix.moveMembers_childIds shown coherent fills
  have afterCoherent : after.Coherent := (moved.coherent.hang hangable _).fragment creation _
  have pruned : tree.Pruned (tree.LostWith anonymous.id creation) after :=
    coherent.pruned_of_moved _ created moved hangable shown around
  have innerUp := (coherent.parent?_of_moved ("new " ++ name ++ "()") created moved hangable).1
  have contentAt : ∀ id, after.content? id = _ := moved.content?_at_end
  have childrenAt : ∀ id, after.childIds id = _ := hangable.childIds_at_end
  have size : after.size = tree.size + 2 := by
    rw [fragment_size, hang_size, moved.size, grow_size]
    rfl
  -- The three old nodes that change are different, and the two new ones come after them.
  have outerHigher := linked.enclosingClass_above_creation created noClass around
  have creationOld := coherent.parent_lt created
  have anonymousOld := lt_size_of_parent? created
  have outerOld := (coherent.above_lt outerHigher).1
  have notOuter : creation ≠ outer := fun same => linked.acyclic _ (same ▸ outerHigher)
  have notCreation : anonymous.id ≠ creation := fun same =>
    linked.acyclic _ (.single (same ▸ created))
  have anonymousApart : anonymous.id ≠ outer := fun same =>
    linked.acyclic _ (.tail (same ▸ outerHigher) created)
  have innerChildren
      : after.childIds tree.size = (tree.size + 1) :: tree.movingMembers anonymous.id := by
    rw [childrenAt, if_neg (Nat.ne_of_gt creationOld), if_neg (Nat.ne_of_gt outerOld), innerIds,
      movedMembers_eq shown]
  have innerParent : after.parent? tree.size = some outer := by
    rw [innerUp, if_neg notOuter.symm]
  constructor
  case root =>
    rw [fragment_root, hang_root, moved.root, grow_root]
  case size =>
    exact size
  case attached =>
    intro id
    have extendedUp : after.parent? (tree.size + 1) = some tree.size :=
      afterCoherent.agree.mp (innerChildren ▸ List.mem_cons_self)
    have new := coherent.new_attached pruned size
      (coherent.attached_upward attached outerHigher.to_reflTransGen)
      (fun lost => linked.acyclic _ (lost.1.trans outerHigher)) innerParent extendedUp
    rw [pruned.attached_iff_or_new coherent afterCoherent new, size,
      linked.lostWith_iff created noClass, not_or]
  case contents =>
    intro id old other
    rw [contentAt, if_neg other, grow_content?_of_lt old]
  case creationText =>
    rw [contentAt, if_pos rfl, grow_content?_of_lt creationOld]
  case creationChildren =>
    rw [childrenAt, if_pos rfl]
  case innerContent =>
    rw [contentAt, if_neg (Nat.ne_of_gt creationOld)]
    exact tree.grow_content?_add _ 0
  case innerParent =>
    exact innerParent
  case innerChildren =>
    exact innerChildren
  case extendedContent =>
    rw [contentAt, if_neg (Nat.ne_of_gt (Nat.lt_succ_of_lt creationOld))]
    exact tree.grow_content?_add _ 1
  case extendedChildren =>
    rw [childrenAt, if_neg (Nat.ne_of_gt (Nat.lt_succ_of_lt creationOld)),
      if_neg (Nat.ne_of_gt (Nat.lt_succ_of_lt outerOld)),
      moved.children _ (Nat.ne_of_gt (Nat.lt_succ_of_lt anonymousOld)) (Nat.succ_ne_self _),
      childIds, tree.grow_node?_add _ 1]
    rfl
  case lastInOuter =>
    rw [childrenAt, if_neg notOuter.symm, if_pos rfl,
      moved.children _ anonymousApart.symm (Nat.ne_of_lt outerOld), grow_childIds_of_lt outerOld]
  case bases =>
    rw [childrenAt, if_neg notCreation, if_neg anonymousApart, restIds, movedMembers_eq shown]
  case children =>
    intro id old others
    simp only [List.mem_cons, List.not_mem_nil, or_false, not_or] at others
    obtain ⟨notAnonymous, notCreation, notOuter⟩ := others
    rw [childrenAt, if_neg notCreation, if_neg notOuter,
      moved.children _ notAnonymous (Nat.ne_of_lt old), grow_childIds_of_lt old]

end Filled

/-- Everything else stays attached exactly if the anonymous class is all of its creation. -/
theorem ClassMade.keepsAttached_iff {name base : String}
    (made : tree.ClassMade anonymous creation outer name base after) (coherent : tree.Coherent)
    (created : tree.parent? anonymous = some creation) (attached : tree.Attached creation)
    : (∀ id, tree.Attached id → ¬tree.LeftBehind anonymous id → after.Attached id)
      ↔ tree.childIds creation = [anonymous] := by
  rw [coherent.childIds_eq_singleton_iff created]
  constructor
  · intro keeps part up
    by_contra other
    have beside : tree.BesideClass anonymous creation part := ⟨part, up, other, .refl⟩
    have notLeft : ¬tree.LeftBehind anonymous part := fun left =>
      beside.not_below coherent.toLinked created left.below
    rcases (made.attached part).mp (keeps part (attached.tail up) notLeft) with
      ⟨_, _, notBeside⟩ | ⟨new, _⟩
    · exact notBeside beside
    · exact Nat.not_le_of_lt (lt_size_of_parent? up) new
  · intro only id before notLeft
    refine (made.attached id).mpr (.inl ⟨before, notLeft, ?_⟩)
    rintro ⟨part, up, other, _⟩
    exact other (only part up)

end Tree

namespace Fix

open TreeLint.Tree

variable {tree after : Tree} {anchor anonymous creation : NodeId}

/-- The fix that names the attached anonymous class of an anchor, created with something that is not
itself a class, makes a class of it in the nearest class around, and changes nothing else.
-/
theorem nameInnerClass_makes (coherent : tree.Coherent) (attached : tree.Attached anchor)
    (hangs : tree.parent? anchor = some anonymous)
    (created : tree.parent? anonymous = some creation) (noClass : tree.isClassAt creation = false)
    (succeeded : (nameInnerClass.applyAt anchor).apply tree = (.ok (), after))
    : ∃ base outer,
        tree.subtree? anchor = some base
        ∧ tree.enclosingClass? anonymous = some outer.id
        ∧ tree.subtree? outer.id = some outer
        ∧ tree.ClassMade anonymous creation outer.id (innerClassName outer base.shownText)
            base.shownText after := by
  have afterCoherent := coherent_of_applyAt coherent succeeded
  obtain ⟨base, found, source, outer, filled, baseShown, up, shown, _, isSource, around, outerShown,
    fills, hangable, rfl⟩ := nameInnerClass_steps coherent succeeded
  cases up.symm.trans hangs
  cases isSource.symm.trans created
  have creationAttached : tree.Attached creation :=
    coherent.attached_upward attached (.tail (.single created) hangs)
  exact ⟨base, outer, baseShown, around, outerShown,
    coherent.classMade shown created noClass around creationAttached fills hangable⟩

/-- The fix that names the attached anonymous class of an anchor, created with `new`, leaves
attached what was, but for the anonymous class itself and its bases, exactly if nothing else hangs
below the creation. The members come behind the base of the new class in their old order, and the
new class comes last in the nearest class around.
-/
theorem nameInnerClass_keepsAttached_iff (reachable : tree.Reachable)
    (attached : tree.Attached anchor) (hangs : tree.parent? anchor = some anonymous)
    (created : tree.parent? anonymous = some creation)
    (isNew : tree.kind? creation = some .newExpression)
    (succeeded : (nameInnerClass.applyAt anchor).apply tree = (.ok (), after))
    : ∃ base outer,
        tree.subtree? anchor = some base
        ∧ tree.enclosingClass? anonymous = some outer.id
        ∧ tree.subtree? outer.id = some outer
        ∧ tree.ClassMade anonymous creation outer.id (innerClassName outer base.shownText)
            base.shownText after
        ∧ ((∀ id, tree.Attached id → ¬tree.LeftBehind anonymous id → after.Attached id)
          ↔ tree.childIds creation = [anonymous]) := by
  have coherent := reachable.coherent
  have noClass : tree.isClassAt creation = false := by
    rw [isClassAt, isNew]
    rfl
  obtain ⟨base, outer, baseShown, around, outerShown, made⟩ :=
    nameInnerClass_makes coherent attached hangs created noClass succeeded
  refine ⟨base, outer, baseShown, around, outerShown, made, ?_⟩
  exact made.keepsAttached_iff coherent created <|
    coherent.attached_upward attached (.tail (.single created) hangs)

end Fix

/-- A file with a method that creates an object of an anonymous class with two methods, with the
given arguments for the constructor.
-/
def creationWith (arguments : List Outline) : Document where
  root :=
    let creation := (arguments.foldl Outline.withArgument
      ((Outline.ofKind .newExpression).named "Base")).withChild
        ((Outline.anonymousClass "Base").append [Outline.method "first", Outline.method "second"])
    Outline.file.withChild <| (Outline.namedClass "Outer").withChild <|
      (Outline.method "run").withChild <| Outline.codeBlock.withChild <|
        Outline.expressionStatement creation

/-- The file with a name for the anonymous class with the given base. -/
def creationNamed (arguments : List Outline) (base : NodeId) : Tree :=
  ((Fix.nameInnerClass.applyAt base).apply (.ofDocument (creationWith arguments))).2

theorem creationNamed_applied {arguments : List Outline} {base : NodeId}
    (ok
      : ((Fix.nameInnerClass.applyAt base).apply (.ofDocument (creationWith arguments))).1 = .ok ())
    : (Fix.nameInnerClass.applyAt base).apply (.ofDocument (creationWith arguments))
      = (.ok (), creationNamed arguments base) :=
  Prod.ext ok rfl

/-- Without arguments, all but the class itself and its base stays. -/
theorem bareCreation_kept
    : let tree := Tree.ofDocument (creationWith [])
      let after := creationNamed [] 7
      (Fix.nameInnerClass.applyAt 7).apply tree = (.ok (), after)
      ∧ after.childIds 1 = [2, 10]
      ∧ after.childIds 10 = [11, 8, 9]
      ∧ ∀ id, tree.Attached id → ¬tree.LeftBehind 6 id → after.Attached id := by
  intro tree after
  have coherent : tree.Coherent := Tree.ofDocument_coherent (creationWith [])
  have attached : tree.Attached 7 := coherent.attached_iff.mpr (by decide +kernel)
  have succeeded : (Fix.nameInnerClass.applyAt 7).apply tree = (.ok (), after) :=
    creationNamed_applied (by decide +kernel)
  obtain ⟨_, _, _, _, _, _, keeps⟩ :=
    Fix.nameInnerClass_keepsAttached_iff (.loaded (creationWith [])) attached
      (show tree.parent? 7 = some 6 by decide +kernel)
      (show tree.parent? 6 = some 5 by decide +kernel)
      (by decide +kernel) succeeded
  exact ⟨succeeded, by decide +kernel, by decide +kernel, keeps.mpr (by decide +kernel)⟩

/-- The argument of the constructor is neither the anonymous class nor below a base of it, and it is
no longer attached.
-/
theorem sizedCreation_dropsArgument
    : let size := Outline.referenceExpression "size"
      let tree := Tree.ofDocument (creationWith [size])
      let after := creationNamed [size] 8
      (Fix.nameInnerClass.applyAt 8).apply tree = (.ok (), after)
      ∧ tree.Attached 8
      ∧ tree.parent? 8 = some 7
      ∧ tree.kind? 7 = some .anonymousClass
      ∧ tree.parent? 7 = some 5
      ∧ tree.kind? 5 = some .newExpression
      ∧ ¬∀ id, tree.Attached id → ¬tree.LeftBehind 7 id → after.Attached id := by
  intro size tree after
  have coherent : tree.Coherent := Tree.ofDocument_coherent (creationWith [size])
  have attached : tree.Attached 8 := coherent.attached_iff.mpr (by decide +kernel)
  have hangs : tree.parent? 8 = some 7 := by decide +kernel
  have created : tree.parent? 7 = some 5 := by decide +kernel
  have succeeded : (Fix.nameInnerClass.applyAt 8).apply tree = (.ok (), after) :=
    creationNamed_applied (by decide +kernel)
  obtain ⟨_, _, _, _, _, made⟩ :=
    Fix.nameInnerClass_makes coherent attached hangs created (by decide +kernel) succeeded
  refine ⟨succeeded, attached, hangs, by decide +kernel, created, by decide +kernel,
    fun keeps => ?_⟩
  have only := (made.keepsAttached_iff coherent created <|
    coherent.attached_upward attached (.tail (.single created) hangs)).mp keeps
  exact absurd only (by decide +kernel)

end TreeLint
