import TreeLint.Proofs.Fix.Atomicity
import TreeLint.Proofs.Tree.Contents
import TreeLint.Proofs.Tree.Outcomes

/-! What the fix that names an anonymous class does. The members of the class move to a new class,
which comes behind the members of the class around, and the anonymous class is cut off with what
created it.
-/

namespace TreeLint

namespace Tree

-----------------------------------------------------------------------------------------
-- Nodes moved below another one
-----------------------------------------------------------------------------------------

/-- The second tree is the first with some children of a node moved below another one. -/
structure MovedInto (tree : Tree) (parent target : NodeId) (ids : List NodeId) (after : Tree)
    : Prop where
  coherent : after.Coherent
  size : after.size = tree.size
  root : after.root = tree.root
  contents : ∀ id, after.content? id = tree.content? id
  parents : ∀ id, after.parent? id = if id ∈ ids then some target else tree.parent? id
  children : ∀ id, id ≠ parent → id ≠ target → after.childIds id = tree.childIds id

end Tree

namespace Fix

open TreeLint.Tree

/-- The first of the nodes to move is cut off where it hangs and comes last below the target. The
others move in the tree that this makes.
-/
theorem moveInto_cons_succeeded {tree after : Tree} (coherent : tree.Coherent)
    {parent target id : NodeId} {rest : List NodeId} (up : tree.parent? id = some parent)
    (succeeded : (moveInto target (id :: rest)).apply tree = (.ok (), after))
    : let cut := tree.cut parent id
      cut.Hangable target id
      ∧ (moveInto target rest).apply (cut.hang target (cut.childIds target).length id)
        = (.ok (), after) := by
  obtain ⟨_, cut, cuts, more⟩ := Edit.bind_succeeded succeeded
  obtain ⟨upper, link, rfl⟩ := Edit.detach_succeeded cuts
  cases link.symm.trans up
  obtain ⟨_, hung, hangs, more⟩ := Edit.bind_succeeded more
  rw [Edit.appendChild_apply] at hangs
  obtain ⟨hangable, rfl⟩ := Edit.insertChild_succeeded (coherent.cut link).toLinked hangs
  exact ⟨hangable, more⟩

/-- The other siblings are siblings after the first one has moved. -/
theorem siblings_moved {tree : Tree} {parent target id : NodeId} {rest : List NodeId}
    (siblings : tree.Siblings parent (id :: rest)) (index : Nat)
    (hangable : (tree.cut parent id).Hangable target id)
    : ((tree.cut parent id).hang target index id).Siblings parent rest :=
  siblings.rest <|
    (tree.cut_frame parent id).trans (hang_frame hangable index) (fun _ member => member)
      (fun _ _ member => member)

/-- Siblings that were all moved below another node hang there, by induction on the list. -/
theorem moveInto_succeeded {tree after : Tree} (coherent : tree.Coherent) {parent target : NodeId}
    {ids : List NodeId} (siblings : tree.Siblings parent ids)
    (succeeded : (moveInto target ids).apply tree = (.ok (), after))
    : tree.MovedInto parent target ids after := by
  induction ids generalizing tree with
  | nil =>
      obtain rfl : tree = after := congrArg Prod.snd succeeded
      exact ⟨coherent, rfl, rfl, fun _ => rfl, fun _ => by simp, fun _ _ _ => rfl⟩
  | cons id rest ih =>
      have up := siblings.below id List.mem_cons_self
      obtain ⟨hangable, more⟩ := moveInto_cons_succeeded coherent up succeeded
      have moved := ih ((coherent.cut up).hang hangable _) (siblings_moved siblings _ hangable) more
      refine ⟨moved.coherent, ?_, ?_, fun other => ?_, fun other => ?_, fun other hp ht => ?_⟩
      · rw [moved.size, hang_size, cut_size]
      · rw [moved.root, hang_root, cut_root]
      · rw [moved.contents, hang_content?, cut_content?]
      · rw [moved.parents, hang_parent? hangable.childPresent, cut_parent?]
        by_cases same : other = id <;> simp [same]
      · rw [moved.children other hp ht, hang_childIds hangable.parentPresent, if_neg ht,
          cut_childIds, if_neg hp]

/-- The moved nodes come behind the children of the target in their order, and those that stay keep
theirs, by induction on the list.
-/
theorem moveInto_childIds {tree after : Tree} (coherent : tree.Coherent) {parent target : NodeId}
    {ids : List NodeId} (siblings : tree.Siblings parent ids) (apart : target ≠ parent)
    (succeeded : (moveInto target ids).apply tree = (.ok (), after))
    : after.childIds target = tree.childIds target ++ ids
      ∧ after.childIds parent = (tree.childIds parent).filter (!ids.contains ·) := by
  induction ids generalizing tree with
  | nil =>
      obtain rfl : tree = after := congrArg Prod.snd succeeded
      simp
  | cons id rest ih =>
      have up := siblings.below id List.mem_cons_self
      obtain ⟨hangable, more⟩ := moveInto_cons_succeeded coherent up succeeded
      obtain ⟨behind, stay⟩ :=
        ih ((coherent.cut up).hang hangable _) (siblings_moved siblings _ hangable) more
      constructor
      · rw [behind, hang_childIds hangable.parentPresent, if_pos rfl, Nat.min_self,
          List.insertIdx_length_self, cut_childIds, if_neg apart, List.append_assoc]
        rfl
      · rw [stay, hang_childIds hangable.parentPresent, if_neg apart.symm, cut_childIds, if_pos rfl,
          List.filter_filter]
        refine List.filter_congr fun child _ => ?_
        rw [List.contains_cons, Bool.not_or, Bool.and_comm]
        rfl

end Fix

namespace Tree

-----------------------------------------------------------------------------------------
-- Anonymous classes that get a name
-----------------------------------------------------------------------------------------

/-- The second tree is the first with the members of an anonymous class moved to a new class. The
anonymous class is left over.
-/
structure ClassNamed (tree : Tree) (anonymous : NodeId) (after : Tree) : Prop where
  coherent : after.Coherent
  root : after.root = tree.root
  isAnonymous : tree.kind? anonymous = some .anonymousClass
  hung : tree.parent? anonymous ≠ none
  loose : after.parent? anonymous = none
  links
    : ∀ lower < tree.size, ∀ upper,
        after.parent? lower = some upper
        → tree.parent? lower = some upper
          ∨ tree.size ≤ upper ∧ tree.parent? lower = some anonymous
  contents
    : ∀ id content,
        tree.content? id = some content
        → after.content? id = some content
          ∨ ∃ text, after.content? id = some (content.asText text)
  newContents
    : ∀ id content,
        tree.size ≤ id
        → after.content? id = some content
        → content.kind ∈ [.namedClass, .reference] ∧ content.role ∈ [.other, .extended]
  /-- Another anonymous class has the children that it had, and the new class at most. -/
  children
    : ∀ id < tree.size,
        id ≠ anonymous
        → after.kind? id = some .anonymousClass
        → after.childIds id = tree.childIds id
          ∨ ∃ inner, tree.size ≤ inner ∧ after.childIds id = tree.childIds id ++ [inner]

/-- A node of another kind than the new ones and than text was there before, and of that kind. -/
theorem ClassNamed.kind?_before {tree after : Tree} {anonymous : NodeId}
    (named : tree.ClassNamed anonymous after) {id : NodeId} {kind : NodeKind}
    (foreign : kind ∉ [NodeKind.fragment, .namedClass, .reference])
    (isKind : after.kind? id = some kind)
    : id < tree.size ∧ tree.kind? id = some kind := by
  obtain ⟨now, known, rfl⟩ := kind?_eq_some_iff.mp isKind
  have old : id < tree.size := Nat.lt_of_not_le fun new =>
    foreign (List.mem_cons_of_mem _ (named.newContents id now new known).1)
  obtain ⟨content, before⟩ := content?_exists old
  rcases named.contents id content before with same | ⟨text, erased⟩
  · cases known.symm.trans same
    exact ⟨old, kind?_eq_some_iff.mpr ⟨_, before, rfl⟩⟩
  · cases known.symm.trans erased
    exact absurd List.mem_cons_self foreign

end Tree

namespace Fix

open TreeLint.Tree

/-- The new class of the fix. -/
def innerClassOutline (name base : String) : Outline :=
  ((Outline.namedClass name).withModifier .privateAccess).withChild
    ((Outline.reference base).withRole .extended)

/-- The two new nodes are a class and a reference. -/
theorem innerClassOutline_contents {name base : String} {i : Nat} {content : Content}
    (known : (innerClassOutline name base).contents[i]? = some content)
    : content.kind ∈ [.namedClass, .reference] ∧ content.role ∈ [.other, .extended] := by
  have both : ∀ content ∈ (innerClassOutline name base).contents,
      content.kind ∈ [.namedClass, .reference] ∧ content.role ∈ [.other, .extended] := by
    intro content member
    rcases List.mem_cons.mp member with rfl | member
    · exact ⟨List.mem_cons_self, List.mem_cons_self⟩
    · cases List.mem_singleton.mp member
      exact ⟨List.mem_cons_of_mem _ List.mem_cons_self, List.mem_cons_of_mem _ List.mem_cons_self⟩
  exact both content (List.mem_of_getElem? known)

/-- Once the new class is filled, hung in the class around and the creation replaced by text, the
anonymous class has its name.
-/
theorem classNamed_of_moved {tree filled : Tree} (coherent : tree.Coherent)
    {anonymous creation outer : NodeId} {members : List NodeId} {name base text : String}
    (isAnonymous : tree.kind? anonymous = some .anonymousClass)
    (created : tree.parent? anonymous = some creation)
    (siblings : tree.Siblings anonymous members)
    (moved : (tree.grow (innerClassOutline name base)).MovedInto anonymous tree.size members filled)
    (hangable : filled.Hangable outer tree.size)
    : tree.ClassNamed anonymous
        ((filled.hang outer (filled.childIds outer).length tree.size).fragment creation text) := by
  let hung := filled.hang outer (filled.childIds outer).length tree.size
  have hungCoherent : hung.Coherent := moved.coherent.hang hangable _
  have hungContents (id : NodeId)
      : hung.content? id = (tree.grow (innerClassOutline name base)).content? id :=
    (hang_content? _ _ _ _ id).trans (moved.contents id)
  -- Of the nodes there were, the members have the new class for their parent, and the others still
  -- have what they had.
  have hungParents {id : NodeId} (old : id < tree.size)
      : hung.parent? id = if id ∈ members then some tree.size else tree.parent? id := by
    rw [hang_parent? hangable.childPresent, if_neg (Nat.ne_of_lt old), moved.parents,
      grow_parent?_of_lt old]
  have creationOld := coherent.parent_lt created
  have anonymousOld := lt_size_of_parent? created
  have looseNow : anonymous ∈ hung.childIds creation := by
    rw [hungCoherent.agree, hungParents anonymousOld,
      if_neg (siblings.parent_not_mem coherent.toLinked), created]
  constructor
  · exact hungCoherent.fragment creation text
  · rw [fragment_root, hang_root, moved.root, grow_root]
  · exact isAnonymous
  · rw [created]
    exact Option.some_ne_none creation
  · rw [fragment_parent?, if_pos looseNow]
  · intro lower old upper up
    rw [fragment_parent?] at up
    split at up
    · cases up
    · rw [hungParents old] at up
      split at up
      · next member =>
          cases up
          exact Or.inr ⟨Nat.le_refl _, siblings.below lower member⟩
      · exact Or.inl up
  · intro id content before
    rw [fragment_content?, hungContents, grow_content?_of_lt (lt_size_of_content? before), before]
    split
    · exact Or.inr ⟨text, rfl⟩
    · exact Or.inl rfl
  · intro id content new known
    rw [fragment_content?, if_neg (Nat.ne_of_gt (Nat.lt_of_lt_of_le creationOld new)), hungContents]
      at known
    obtain ⟨i, rfl⟩ := Nat.exists_eq_add_of_le new
    rw [grow_content?_add] at known
    exact innerClassOutline_contents known
  · intro id old other isKind
    have notCreation : id ≠ creation := by
      rintro rfl
      obtain ⟨content, before⟩ := content?_exists old
      rw [kind?, fragment_content?, if_pos rfl, hungContents, grow_content?_of_lt old, before]
        at isKind
      cases isKind
    rw [fragment_childIds, if_neg notCreation, hang_childIds hangable.parentPresent]
    have filledSame : filled.childIds id = tree.childIds id := by
      rw [moved.children id other (Nat.ne_of_lt old), grow_childIds_of_lt old]
    split
    · next isOuter =>
        subst isOuter
        refine Or.inr ⟨tree.size, Nat.le_refl _, ?_⟩
        rw [Nat.min_self, List.insertIdx_length_self, filledSame]
    · exact Or.inl filledSame

/-- The members of the anonymous class of an anchor, as the fix moves them: its children but for the
base.
-/
def movedMembers (anonymous : Subtree) : List NodeId :=
  (anonymous.children.filter (·.role != .baseClass)).map (·.id)

section Members

variable {tree filled : Tree} {anonymous : Subtree} {name base : String}
  (shown : tree.subtree? anonymous.id = some anonymous)

include shown

/-- The nodes that the fix moves are children of the anonymous class. -/
theorem siblings_movedMembers (linked : tree.Linked)
    : tree.Siblings anonymous.id (movedMembers anonymous) :=
  linked.siblings shown List.filter_sublist

variable (coherent : tree.Coherent)
  (fills
    : (moveInto tree.size (movedMembers anonymous)).apply (tree.grow (innerClassOutline name base))
      = (.ok (), filled))

include coherent fills

theorem moveMembers_succeeded
    : (tree.grow (innerClassOutline name base)).MovedInto anonymous.id tree.size
        (movedMembers anonymous) filled :=
  moveInto_succeeded (coherent.grow _)
    ((siblings_movedMembers shown coherent.toLinked).still (tree.grow_frame _)) fills

/-- The members come behind the base of the new class, and the anonymous class keeps the rest. -/
theorem moveMembers_childIds
    : filled.childIds tree.size = (tree.size + 1) :: movedMembers anonymous
      ∧ filled.childIds anonymous.id
        = (tree.childIds anonymous.id).filter (!(movedMembers anonymous).contains ·) := by
  have old : anonymous.id < tree.size := lt_size_of_kind? (kind?_of_shown shown)
  obtain ⟨behind, stay⟩ :=
    moveInto_childIds (coherent.grow _)
      ((siblings_movedMembers shown coherent.toLinked).still (tree.grow_frame _))
      (Nat.ne_of_gt old) fills
  rw [grow_childIds_of_lt old] at stay
  refine ⟨behind.trans ?_, stay⟩
  rw [childIds, show (tree.grow _).node? tree.size = _ from tree.grow_node?_add _ 0]
  rfl

end Members

/-- The steps of the fix: a class with a free name and the base of the anchor is added, the members
move there, it is hung in the class around, and the creation is replaced by one of the new class.
-/
theorem nameInnerClass_steps {tree after : Tree} (coherent : tree.Coherent) {anchor : NodeId}
    (succeeded : (nameInnerClass.applyAt anchor).apply tree = (.ok (), after))
    : ∃ base anonymous creation outer filled,
        tree.subtree? anchor = some base
        ∧ tree.parent? anchor = some anonymous.id
        ∧ tree.subtree? anonymous.id = some anonymous
        ∧ anonymous.kind = .anonymousClass
        ∧ tree.parent? anonymous.id = some creation
        ∧ tree.enclosingClass? anonymous.id = some outer.id
        ∧ tree.subtree? outer.id = some outer
        ∧ (moveInto tree.size (movedMembers anonymous)).apply
            (tree.grow (innerClassOutline (innerClassName outer base.shownText) base.shownText))
          = (.ok (), filled)
        ∧ filled.Hangable outer.id tree.size
        ∧ after
          = (filled.hang outer.id (filled.childIds outer.id).length tree.size).fragment creation
              ("new " ++ innerClassName outer base.shownText ++ "()") := by
  obtain ⟨_, present, rest⟩ := Edit.ensureNode_succeeded succeeded
  have looked := Edit.current_succeeded rest
  obtain ⟨anonymous, found, more⟩ := Edit.require_succeeded looked
  obtain ⟨creation, created, more⟩ := Edit.require_succeeded more
  obtain ⟨outer, around, more⟩ := Edit.require_succeeded more
  obtain ⟨base, baseShown⟩ := coherent.toLinked.subtree?_exists present
  rw [baseShown, Option.map_some, Option.getD_some] at more
  obtain ⟨there, isAnonymous⟩ := Option.filter_eq_some_iff.mp found
  obtain ⟨number, up, shown⟩ := Option.bind_eq_some_iff.mp there
  obtain rfl := subtree?_id shown
  obtain ⟨nearest, isNearest, outerShown⟩ := Option.bind_eq_some_iff.mp around
  obtain rfl := subtree?_id outerShown
  obtain ⟨inner, grown, grows, more⟩ := Edit.bind_succeeded more
  obtain ⟨rfl, rfl⟩ := Edit.addOutline_succeeded grows
  obtain ⟨_, filled, fills, more⟩ := Edit.bind_succeeded more
  have moved := moveMembers_succeeded shown coherent fills
  obtain ⟨_, hung, hangs, replaced⟩ := Edit.bind_succeeded more
  rw [Edit.appendChild_apply] at hangs
  obtain ⟨hangable, rfl⟩ := Edit.insertChild_succeeded moved.coherent.toLinked hangs
  exact ⟨base, anonymous, creation, outer, filled, baseShown, up, shown, eq_of_beq isAnonymous,
    created, isNearest, outerShown, fills, hangable, Edit.replaceWithText_succeeded replaced⟩

/-- The fix moves the members of the anonymous class to a new class, hangs that one in the class
around and puts text in the place of what created the anonymous class.
-/
theorem nameInnerClass_moves {tree after : Tree} (coherent : tree.Coherent) {anchor : NodeId}
    (succeeded : (nameInnerClass.applyAt anchor).apply tree = (.ok (), after))
    : ∃ anonymous creation outer name base text filled,
        tree.parent? anchor = some anonymous.id
        ∧ tree.subtree? anonymous.id = some anonymous
        ∧ anonymous.kind = .anonymousClass
        ∧ tree.parent? anonymous.id = some creation
        ∧ tree.enclosingClass? anonymous.id = some outer
        ∧ tree.Siblings anonymous.id (movedMembers anonymous)
        ∧ (tree.grow (innerClassOutline name base)).MovedInto anonymous.id tree.size
            (movedMembers anonymous) filled
        ∧ filled.Hangable outer tree.size
        ∧ after
          = (filled.hang outer (filled.childIds outer).length tree.size).fragment creation text := by
  obtain ⟨base, anonymous, creation, outer, filled, _, up, shown, isAnonymous, created, around, _,
    fills, hangable, isAfter⟩ := nameInnerClass_steps coherent succeeded
  exact ⟨anonymous, creation, outer.id, _, _, _, filled, up, shown, isAnonymous, created, around,
    siblings_movedMembers shown coherent.toLinked, moveMembers_succeeded shown coherent fills,
    hangable, isAfter⟩

/-- The anonymous class of the anchor gets a name. -/
theorem nameInnerClass_succeeded {tree after : Tree} (coherent : tree.Coherent) {anchor : NodeId}
    (succeeded : (nameInnerClass.applyAt anchor).apply tree = (.ok (), after))
    : ∃ anonymous,
        tree.parent? anchor = some anonymous
        ∧ tree.ClassNamed anonymous after := by
  obtain ⟨anonymous, _, _, _, _, _, _, up, shown, isAnonymous, created, _, siblings, moved,
    hangable, rfl⟩ := nameInnerClass_moves coherent succeeded
  have isKind := (kind?_of_shown shown).trans (congrArg some isAnonymous)
  exact ⟨anonymous.id, up, classNamed_of_moved coherent isKind created siblings moved hangable⟩

end Fix

end TreeLint
