import TreeLint.Proofs.Fix.NamedClasses

/-! Whether named classes lie inside named classes of the same name once anonymous classes get names.
The fix makes sure only that the class around has no other member class of the name. Main result:
where no class lay in one of the same name, this stays so all along a number of fixes exactly if each
of them gives a name that no class around the new one has, and none inside.
-/

namespace TreeLint

open Relation

-----------------------------------------------------------------------------------------
-- Classes inside classes
-----------------------------------------------------------------------------------------

namespace Tree

/-- The name of a node that is a named class. -/
def className? (tree : Tree) (id : NodeId) : Option String :=
  (tree.content? id).bind fun content =>
    if content.kind = .namedClass then content.name else none

/-- No named class lies inside a named class of the same name. -/
def NestsApart (tree : Tree) : Prop :=
  ∀ upper lower name,
    tree.Attached lower
    → tree.Above upper lower
    → tree.className? upper = some name
    → tree.className? lower ≠ some name

/-- A name that no class at or above a node has, and none that moves away from an anonymous class. -/
structure Unused (tree : Tree) (anonymous outer : NodeId) (name : String) : Prop where
  around
    : ∀ upper, ReflTransGen tree.IsParent upper outer → tree.className? upper ≠ some name
  inside
    : ∀ member,
        tree.MovesFrom anonymous member
        → ∀ lower,
            ReflTransGen tree.IsParent member lower → tree.className? lower ≠ some name

/-- The name that the anonymous class of an anchor gets is not used around the new class or inside.
Away from the attached part, and where the class is lost with the class that it is created by, any
name will do.
-/
def NamesApart (tree : Tree) (anchor : NodeId) : Prop :=
  ∀ base anonymous creation outer,
    tree.subtree? anchor = some base
    → tree.parent? anchor = some anonymous
    → tree.parent? anonymous = some creation
    → tree.enclosingClass? anonymous = some outer.id
    → tree.subtree? outer.id = some outer
    → tree.Attached anchor
    → tree.isClassAt creation = false
    → tree.Unused anonymous outer.id (Fix.innerClassName outer base.shownText)

/-- The second tree is the first after some anonymous classes got names, the last step first in the
list. Each step tells the tree before and the anchor.
-/
inductive ClassesNamed (tree : Tree) : List (Tree × NodeId) → Tree → Prop where
  | start : tree.ClassesNamed [] tree
  | next {steps : List (Tree × NodeId)} {before after : Tree} {anchor : NodeId}
    (history : tree.ClassesNamed steps before)
    (succeeded : (Fix.nameInnerClass.applyAt anchor).apply before = (.ok (), after))
    : tree.ClassesNamed ((before, anchor) :: steps) after

variable {tree after : Tree} {anonymous creation outer : NodeId} {moved : List NodeId}
  {name : String}

-----------------------------------------------------------------------------------------
-- One class more
-----------------------------------------------------------------------------------------

/-- What the fix does to the links of a tree and to the names of its classes: the members hang below
the new class, that one in the class around, and nothing below what created the anonymous class.
-/
structure ClassHung (tree : Tree) (anonymous creation outer : NodeId) (moved : List NodeId)
    (name : String) (after : Tree)
    : Prop where
  root : after.root = tree.root
  rootOld : tree.root < tree.size
  created : tree.parent? anonymous = some creation
  around : tree.enclosingClass? anonymous = some outer
  moves : ∀ id, id ∈ moved ↔ tree.MovesFrom anonymous id
  innerUp : after.parent? tree.size = if outer = creation then none else some outer
  oldUp
    : ∀ id < tree.size,
        after.parent? id
          = if id ∈ moved then some tree.size
            else if tree.parent? id = some creation then none
            else tree.parent? id
  innerNamed : after.className? tree.size = some name
  oldNamed
    : ∀ id < tree.size,
        after.className? id = if id = creation then none else tree.className? id
  restUnnamed : ∀ id, tree.size < id → after.className? id = none

namespace ClassHung

/-- The members are those of the anonymous class. -/
theorem below (hung : tree.ClassHung anonymous creation outer moved name after) {member : NodeId}
    (among : member ∈ moved)
    : tree.parent? member = some anonymous :=
  ((hung.moves member).mp among).1

theorem outerAbove (hung : tree.ClassHung anonymous creation outer moved name after)
    (linked : tree.Linked)
    : tree.Above outer anonymous :=
  Fix.enclosingClass?_above linked hung.around

/-- What is above an old node afterwards was so before, or is the new class above its members. What
is above the new class was around its members. By induction on the way down.
-/
theorem above_before (hung : tree.ClassHung anonymous creation outer moved name after)
    (linked : tree.Linked) {upper lower : NodeId} (above : after.Above upper lower)
    : (lower < tree.size →
        tree.Above upper lower
        ∨ upper = tree.size ∧ ∃ member ∈ moved, ReflTransGen tree.IsParent member lower)
      ∧ (lower = tree.size → ReflTransGen tree.IsParent upper outer) := by
  have outerAbove := hung.outerAbove linked
  have outerOld : outer < tree.size := (linked.above_lt outerAbove).1
  -- The link to the last node is an old one, unless it leads from the new class or to it.
  have link {upper lower : NodeId} (up : after.parent? lower = some upper)
      : (lower < tree.size →
          upper = tree.size ∧ lower ∈ moved
          ∨ upper < tree.size ∧ tree.parent? lower = some upper)
        ∧ (lower = tree.size → upper = outer) := by
    refine ⟨fun old => ?_, fun new => ?_⟩
    · rw [hung.oldUp lower old] at up
      split at up
      · next among => exact .inl ⟨(Option.some.inj up).symm, among⟩
      · split at up
        · cases up
        · exact .inr ⟨linked.parent_lt up, up⟩
    · rw [new, hung.innerUp] at up
      split at up
      · cases up
      · exact (Option.some.inj up).symm
  induction above with
  | single up =>
      obtain ⟨old, new⟩ := link up
      refine ⟨fun early => ?_, fun isNew => new isNew ▸ .refl⟩
      rcases old early with ⟨isInner, among⟩ | ⟨_, up⟩
      · exact .inr ⟨isInner, _, among, .refl⟩
      · exact .inl (.single up)
  | @tail middle lower _ up ih =>
      obtain ⟨old, new⟩ := link up
      constructor
      · intro early
        rcases old early with ⟨isInner, among⟩ | ⟨middleOld, up⟩
        · have way := TransGen.trans_right (ih.2 isInner) outerAbove
          exact .inl (way.tail (hung.below among))
        · refine (ih.1 middleOld).imp (·.tail up) fun ⟨isInner, member, among, way⟩ => ?_
          exact ⟨isInner, member, among, way.tail up⟩
      · intro isNew
        rw [new isNew] at ih
        rcases ih.1 outerOld with higher | ⟨_, member, among, way⟩
        · exact higher.to_reflTransGen
        · have circle : tree.Above anonymous anonymous :=
            TransGen.trans (TransGen.head' (hung.below among) way) outerAbove
          exact absurd circle (linked.acyclic _)

/-- An old node that is attached afterwards was so before. -/
theorem attached_before (hung : tree.ClassHung anonymous creation outer moved name after)
    (linked : tree.Linked) {id : NodeId} (old : id < tree.size) (attached : after.Attached id)
    : tree.Attached id := by
  rw [Attached, hung.root] at attached
  rcases reflTransGen_iff_eq_or_transGen.mp attached with same | above
  · exact same ▸ .refl
  · rcases (hung.above_before linked above).1 old with higher | ⟨isNew, _⟩
    · exact higher.to_reflTransGen
    · exact absurd isNew (Nat.ne_of_lt hung.rootOld)

/-- A way up that ends below neither the anonymous class nor what created it is still there. -/
theorem way_after (hung : tree.ClassHung anonymous creation outer moved name after)
    {upper lower : NodeId} (way : ReflTransGen tree.IsParent upper lower)
    (apart
      : ∀ id,
          tree.Above upper id
          → ReflTransGen tree.IsParent id lower
          → tree.parent? id ≠ some anonymous ∧ tree.parent? id ≠ some creation)
    : ReflTransGen after.IsParent upper lower := by
  induction way with
  | refl => exact .refl
  | @tail middle lower way up ih =>
      obtain ⟨notMember, notPart⟩ := apart lower (TransGen.tail' way up) .refl
      have notAmong : lower ∉ moved := fun among => notMember (hung.below among)
      refine (ih fun id above rest => apart id above (rest.tail up)).tail ?_
      change after.parent? lower = some middle
      rw [hung.oldUp lower (lt_size_of_parent? up), if_neg notAmong, if_neg notPart, up]

/-- What was at or above the class around is so still, unless that class created the anonymous one.
-/
theorem way_to_outer (hung : tree.ClassHung anonymous creation outer moved name after)
    (linked : tree.Linked) (apart : outer ≠ creation) {upper : NodeId}
    (way : ReflTransGen tree.IsParent upper outer)
    : ReflTransGen after.IsParent upper outer := by
  have outerAbove := hung.outerAbove linked
  have higher : tree.Above outer creation :=
    ((above_iff_of_parent hung.created).mp outerAbove).resolve_left apart
  -- A node at or above the class around has no parent below that class.
  have apart {id lower : NodeId} (rest : ReflTransGen tree.IsParent id outer)
      (below : tree.Above outer lower)
      : tree.parent? id ≠ some lower := by
    intro up
    have link : tree.IsParent lower id := up
    exact linked.acyclic _ ((TransGen.head' link rest).trans below)
  exact hung.way_after way fun id _ rest => ⟨apart rest outerAbove, apart rest higher⟩

/-- What was at or below a member is so still. -/
theorem way_from_member (hung : tree.ClassHung anonymous creation outer moved name after)
    (linked : tree.Linked) {member lower : NodeId} (among : member ∈ moved)
    (way : ReflTransGen tree.IsParent member lower)
    : ReflTransGen after.IsParent member lower := by
  have below : tree.Above anonymous member := .single (hung.below among)
  have lowest : tree.Above creation member := .head hung.created below
  -- A node between hangs below a node at or below the member, so it has no parent above that.
  have apart {id upper : NodeId} (above : tree.Above member id) (higher : tree.Above upper member)
      : tree.parent? id ≠ some upper := by
    intro up
    rcases (above_iff_of_parent up).mp above with rfl | between
    · exact linked.acyclic _ higher
    · exact linked.acyclic _ (between.trans higher)
  exact hung.way_after way fun id above _ => ⟨apart above below, apart above lowest⟩

/-- The new class is attached exactly if the anchor was, and no class created the anonymous one. -/
theorem attached_inner_iff (hung : tree.ClassHung anonymous creation outer moved name after)
    (coherent : tree.Coherent) {anchor : NodeId} (hangs : tree.parent? anchor = some anonymous)
    : after.Attached tree.size ↔ tree.Attached anchor ∧ tree.isClassAt creation = false := by
  have linked := coherent.toLinked
  have outerAbove := hung.outerAbove linked
  have outerOld : outer < tree.size := (linked.above_lt outerAbove).1
  have isClass := linked.enclosingClass?_eq_iff hung.created hung.around
  have notRoot : tree.size ≠ after.root := hung.root ▸ Nat.ne_of_gt hung.rootOld
  constructor
  · intro attached
    obtain ⟨upper, up, upperAttached⟩ := attached.exists_parent notRoot
    rw [hung.innerUp] at up
    split at up
    · cases up
    · next apart =>
        cases up
        refine ⟨?_, Bool.eq_false_iff.mpr fun yes => apart (isClass.mpr yes)⟩
        have before := hung.attached_before linked outerOld upperAttached
        exact (before.trans outerAbove.to_reflTransGen).tail hangs
  · rintro ⟨attached, noClass⟩
    have apart : outer ≠ creation := fun same =>
      Bool.false_ne_true (noClass.symm.trans (isClass.mp same))
    have outerAttached : tree.Attached outer :=
      coherent.attached_upward attached (outerAbove.tail hangs).to_reflTransGen
    have innerUp : after.parent? tree.size = some outer := by
      rw [hung.innerUp, if_neg apart]
    have way := hung.way_to_outer linked apart outerAttached
    rw [← hung.root] at way
    exact ReflTransGen.tail way innerUp

/-- Where no class lay in one of the same name, this stays so exactly if the new class, where it is
attached, has a name that is not used around it or inside.
-/
theorem nestsApart_iff (hung : tree.ClassHung anonymous creation outer moved name after)
    (coherent : tree.Coherent) (afterCoherent : after.Coherent) (apart : tree.NestsApart)
    : after.NestsApart
      ↔ (after.Attached tree.size → tree.Unused anonymous outer name) := by
  have linked := coherent.toLinked
  have outerAbove := hung.outerAbove linked
  have higher := (above_iff_of_parent hung.created).mp outerAbove
  have named {id : NodeId} {given : String} (old : id < tree.size)
      (isNamed : after.className? id = some given)
      : tree.className? id = some given := by
    rw [hung.oldNamed id old] at isNamed
    split at isNamed
    · cases isNamed
    · exact isNamed
  have stillNamed {id : NodeId} (old : id < tree.size) (other : id ≠ creation)
      : after.className? id = tree.className? id := by
    rw [hung.oldNamed id old, if_neg other]
  constructor
  · intro nests attached
    obtain ⟨parent, up, _⟩ :=
      attached.exists_parent (hung.root ▸ Nat.ne_of_gt hung.rootOld)
    have notCreation : outer ≠ creation := by
      intro same
      rw [hung.innerUp, if_pos same] at up
      cases up
    have innerUp : after.parent? tree.size = some outer := by
      rw [hung.innerUp, if_neg notCreation]
    have outerHigher := higher.resolve_left notCreation
    constructor
    · intro upper way isNamed
      have aboveInner : after.Above upper tree.size :=
        TransGen.tail' (hung.way_to_outer linked notCreation way) innerUp
      have aboveCreation : tree.Above upper creation := TransGen.trans_right way outerHigher
      refine nests _ _ name attached aboveInner ?_ hung.innerNamed
      rw [stillNamed (linked.above_lt aboveCreation).1, isNamed]
      rintro rfl
      exact linked.acyclic _ aboveCreation
    · intro member moves lower way isNamed
      have among := (hung.moves member).mpr moves
      have memberOld := lt_size_of_parent? moves.1
      have memberUp : after.parent? member = some tree.size := by
        rw [hung.oldUp member memberOld, if_pos among]
      have aboveLower : after.Above tree.size lower :=
        TransGen.head' memberUp (hung.way_from_member linked among way)
      have belowCreation : tree.Above creation lower :=
        .head hung.created (TransGen.head' moves.1 way)
      have notCreation : lower ≠ creation := by
        rintro rfl
        exact linked.acyclic _ belowCreation
      refine nests _ _ name (attached.trans aboveLower.to_reflTransGen) aboveLower
        hung.innerNamed ?_
      rw [stillNamed (linked.above_lt belowCreation).2 notCreation, isNamed]
  · intro unused upper lower given attached above upperNamed lowerNamed
    obtain ⟨old, new⟩ := hung.above_before linked above
    rcases Nat.lt_trichotomy lower tree.size with early | rfl | late
    · have lowerBefore := named early lowerNamed
      rcases old early with before | ⟨rfl, member, among, way⟩
      · exact apart upper lower given (hung.attached_before linked early attached) before
          (named (linked.above_lt before).1 upperNamed) lowerBefore
      · cases hung.innerNamed.symm.trans upperNamed
        have innerAttached := afterCoherent.attached_upward attached above.to_reflTransGen
        exact (unused innerAttached).inside member ((hung.moves member).mp among) lower way
          lowerBefore
    · cases hung.innerNamed.symm.trans lowerNamed
      have way := new rfl
      have upperOld : upper < tree.size :=
        (linked.above_lt (TransGen.trans_right way outerAbove)).1
      exact (unused attached).around upper way (named upperOld upperNamed)
    · exact absurd ((hung.restUnnamed lower late).symm.trans lowerNamed) (by simp)

end ClassHung

end Tree

namespace Fix

open TreeLint.Tree

variable {tree after : Tree} {anchor : NodeId}

/-- The fix hangs the new class into the class around. -/
theorem nameInnerClass_hangs (coherent : tree.Coherent)
    (succeeded : (nameInnerClass.applyAt anchor).apply tree = (.ok (), after))
    : ∃ base anonymous creation outer moved,
        tree.subtree? anchor = some base
        ∧ tree.parent? anchor = some anonymous
        ∧ tree.subtree? outer.id = some outer
        ∧ tree.ClassHung anonymous creation outer.id moved (innerClassName outer base.shownText)
            after := by
  obtain ⟨base, anonymous, creation, outer, filled, baseShown, up, shown, _, created, around,
    outerShown, fills, hangable, rfl⟩ := nameInnerClass_steps coherent succeeded
  let name := innerClassName outer base.shownText
  have moved := moveMembers_succeeded shown coherent fills
  have creationOld := coherent.parent_lt created
  let after :=
    (filled.hang outer.id (filled.childIds outer.id).length tree.size).fragment creation
      ("new " ++ name ++ "()")
  have contentAt : ∀ id, after.content? id = _ := moved.content?_at_end
  obtain ⟨innerUp, oldUp⟩ := coherent.parent?_of_moved ("new " ++ name ++ "()") created moved hangable
  refine ⟨base, anonymous.id, creation, outer, movedMembers anonymous, baseShown, up, outerShown,
    ?_⟩
  constructor
  case root =>
    rw [fragment_root, hang_root, moved.root, grow_root]
  case rootOld =>
    exact contains_iff.mp coherent.rootPresent
  case created =>
    exact created
  case around =>
    exact around
  case moves =>
    exact fun id => coherent.mem_movedMembers_iff shown
  case innerUp =>
    exact innerUp
  case oldUp =>
    exact oldUp
  case innerNamed =>
    rw [className?, contentAt, if_neg (Nat.ne_of_gt creationOld)]
    rw [show (tree.grow _).content? tree.size = _ from tree.grow_content?_add _ 0]
    rfl
  case oldNamed =>
    intro id old
    rw [className?, className?, contentAt, grow_content?_of_lt old]
    split
    · cases tree.content? id <;> rfl
    · rfl
  case restUnnamed =>
    intro id late
    have other : id ≠ creation := Nat.ne_of_gt (Nat.lt_trans creationOld late)
    obtain ⟨i, rfl⟩ := Nat.exists_eq_add_of_lt late
    rw [className?, contentAt, if_neg other, Nat.add_assoc]
    rw [show (tree.grow _).content? (tree.size + (i + 1)) = _ from tree.grow_content?_add _ _]
    cases i <;> rfl

/-- Where no class lay in one of the same name, the fix leaves it so exactly if the name that it gives
is not used around the new class or inside.
-/
theorem nameInnerClass_nestsApart_iff (coherent : tree.Coherent) (apart : tree.NestsApart)
    (succeeded : (nameInnerClass.applyAt anchor).apply tree = (.ok (), after))
    : after.NestsApart ↔ tree.NamesApart anchor := by
  have afterCoherent := coherent_of_applyAt coherent succeeded
  obtain ⟨base, anonymous, creation, outer, moved, baseShown, up, outerShown, hung⟩ :=
    nameInnerClass_hangs coherent succeeded
  rw [hung.nestsApart_iff coherent afterCoherent apart, hung.attached_inner_iff coherent up]
  constructor
  · intro unused base' anonymous' creation' outer' isBase isAnonymous isCreation isOuter isShown
      attached noClass
    cases isAnonymous.symm.trans up
    cases isBase.symm.trans baseShown
    cases isCreation.symm.trans hung.created
    have same := Option.some.inj (isOuter.symm.trans hung.around)
    rw [same, outerShown] at isShown
    cases isShown
    exact unused ⟨attached, noClass⟩
  · rintro names ⟨attached, noClass⟩
    exact names base anonymous creation outer baseShown up hung.created hung.around outerShown
      attached noClass

theorem coherent_of_classesNamed {steps : List (Tree × NodeId)} (coherent : tree.Coherent)
    (history : tree.ClassesNamed steps after)
    : after.Coherent := by
  induction history with
  | start => exact coherent
  | next _ succeeded ih => exact coherent_of_applyAt ih succeeded

/-- Along a number of fixes that name anonymous classes, no class comes to lie in one of the same name
exactly if none of the names is used around its new class or inside. By induction on the fixes.
-/
theorem nestsApart_throughout_iff {steps : List (Tree × NodeId)} (reachable : tree.Reachable)
    (apart : tree.NestsApart) (history : tree.ClassesNamed steps after)
    : (after.NestsApart ∧ ∀ step ∈ steps, step.1.NestsApart)
      ↔ ∀ step ∈ steps, step.1.NamesApart step.2 := by
  induction history with
  | start => simpa using apart
  | @next steps before after anchor earlier succeeded ih =>
      have beforeCoherent := coherent_of_classesNamed reachable.coherent earlier
      rw [List.forall_mem_cons, List.forall_mem_cons, ← ih]
      constructor
      · rintro ⟨nests, beforeNests, still⟩
        have step := nameInnerClass_nestsApart_iff beforeCoherent beforeNests succeeded
        exact ⟨step.mp nests, beforeNests, still⟩
      · rintro ⟨names, beforeNests, still⟩
        have step := nameInnerClass_nestsApart_iff beforeCoherent beforeNests succeeded
        exact ⟨step.mpr names, beforeNests, still⟩

end Fix

/-- A file with an anonymous `Foo` in a method of another anonymous `Foo`. -/
def fooInFoo : Document where
  root :=
    let creation (members : List Outline) : Outline :=
      Outline.expressionStatement <| ((Outline.ofKind .newExpression).named "Foo").withChild
        ((Outline.anonymousClass "Foo").append members)
    Outline.file.withChild <| (Outline.namedClass "A").withChild <|
      (Outline.method "m").withChild <| Outline.codeBlock.withChild <|
        creation [(Outline.method "n").withChild (Outline.codeBlock.withChild (creation []))]

/-- The file with a name for the inner class. -/
def fooInFooBegun : Tree :=
  ((Fix.nameInnerClass.applyAt 13).apply (.ofDocument fooInFoo)).2

/-- The file with names for both classes. -/
def fooInFooNamed : Tree :=
  ((Fix.nameInnerClass.applyAt 7).apply fooInFooBegun).2

theorem fooInFoo_history
    : (Tree.ofDocument fooInFoo).ClassesNamed
        [(fooInFooBegun, 7), (Tree.ofDocument fooInFoo, 13)] fooInFooNamed :=
  .next (.next .start (Prod.ext (by decide +kernel) rfl)) (Prod.ext (by decide +kernel) rfl)

/-- Only the class around all has a name. -/
theorem fooInFoo_apart : (Tree.ofDocument fooInFoo).NestsApart := by
  have only : ∀ id < (Tree.ofDocument fooInFoo).size,
      ((Tree.ofDocument fooInFoo).className? id).isSome → id = 1 := by decide +kernel
  have isFirst {id : NodeId} {name : String}
      (named : (Tree.ofDocument fooInFoo).className? id = some name)
      : id = 1 := by
    obtain ⟨_, known, _⟩ := Option.bind_eq_some_iff.mp named
    exact only id (Tree.lt_size_of_content? known) (by rw [named, Option.isSome_some])
  intro upper lower name _ above upperNamed lowerNamed
  rw [isFirst upperNamed, isFirst lowerNamed] at above
  exact (Tree.ofDocument_coherent fooInFoo).acyclic 1 above

/-- The class around the first name has the same name. -/
theorem fooInFoo_within
    : fooInFooNamed.Attached 14
      ∧ fooInFooNamed.parent? 14 = some 16
      ∧ fooInFooNamed.className? 16 = some "FooImpl"
      ∧ fooInFooNamed.className? 14 = some "FooImpl" := by
  have coherent := Fix.coherent_of_classesNamed (Tree.ofDocument_coherent fooInFoo) fooInFoo_history
  exact ⟨coherent.attached_iff.mpr (by decide +kernel), by decide +kernel, by decide +kernel,
    by decide +kernel⟩

theorem fooInFoo_notApart : ¬fooInFooNamed.NestsApart := by
  obtain ⟨attached, up, outer, inner⟩ := fooInFoo_within
  exact fun nests => nests 16 14 "FooImpl" attached (.single up) outer inner

/-- No class lay in one of the same name, and now the class `FooImpl` lies in another one. -/
theorem fooInFoo_nested
    : (Tree.ofDocument fooInFoo).NestsApart
      ∧ (Tree.ofDocument fooInFoo).ClassesNamed
          [(fooInFooBegun, 7), (Tree.ofDocument fooInFoo, 13)] fooInFooNamed
      ∧ (fooInFooNamed.Attached 14
        ∧ fooInFooNamed.parent? 14 = some 16
        ∧ fooInFooNamed.className? 16 = some "FooImpl"
        ∧ fooInFooNamed.className? 14 = some "FooImpl")
      ∧ ¬fooInFooNamed.NestsApart :=
  ⟨fooInFoo_apart, fooInFoo_history, fooInFoo_within, fooInFoo_notApart⟩

/-- One of the two names is used already, around the new class or inside. -/
theorem fooInFoo_used
    : (Tree.ofDocument fooInFoo).NestsApart
      ∧ ∃ step ∈ [(fooInFooBegun, 7), (Tree.ofDocument fooInFoo, 13)],
          ¬step.1.NamesApart step.2 := by
  have throughout :=
    Fix.nestsApart_throughout_iff (.loaded fooInFoo) fooInFoo_apart fooInFoo_history
  refine ⟨fooInFoo_apart, ?_⟩
  by_contra unused
  push Not at unused
  exact fooInFoo_notApart (throughout.mpr unused).1

end TreeLint
