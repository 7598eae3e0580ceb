import TreeLint.Proofs.Fix.Repetition

/-! Where a variable for the receiver of a call comes to stand. The receiver is taken out of the call
with all that is below it and becomes the value of the variable. Nothing else is lost, changed or put
in another order, and the three new nodes are the only ones to come.
-/

namespace TreeLint

open Relation

namespace Tree

/-- The second tree is the first with the receiver of a call hoisted out of it: a variable for the
receiver is declared right before the statement of the call, and the call refers to the variable.
-/
structure Hoisted (tree : Tree) (call : NodeId) (receiver : Subtree) (statement block : NodeId)
    (name typeName : String) (after : Tree)
    : Prop where
  file : tree.SameFile after
  root : after.root = tree.root
  size : after.size = tree.size + 3
  /-- The nodes attached afterwards are those attached before and the three new ones. -/
  attached
    : ∀ id,
        after.Attached id
        ↔ tree.Attached id ∨ id ∈ [tree.size, tree.size + 1, tree.size + 2]
  contents : ∀ id < tree.size, id ≠ receiver.id → after.content? id = tree.content? id
  /-- The receiver says and has below it what it did. -/
  value
    : after.subtree? receiver.id
      = some (.mk receiver.id { receiver.content with role := .initializer } receiver.children)
  declaration
    : after.node? tree.size
      = some
          { content := { kind := .declarationStatement }
            parent := some block
            children := [tree.size + 1] }
  declared
    : after.node? (tree.size + 1)
      = some
          { content := (Outline.localVariable name typeName).content
            parent := some tree.size
            children := [receiver.id] }
  reference
    : after.node? (tree.size + 2)
      = some
          { content := (referenceOutline name typeName).content
            parent := some call
            children := [] }
  parents : ∀ id < tree.size, id ≠ receiver.id → after.parent? id = tree.parent? id
  siblings : ∀ id < tree.size, id ≠ call → id ≠ block → after.childIds id = tree.childIds id
  /-- The declaration comes right before the statement. -/
  inBlock
    : ∃ before behind,
        tree.childIds block = before ++ statement :: behind
        ∧ after.childIds block = before ++ tree.size :: statement :: behind
  /-- The reference comes first in the call, and the receiver is gone from there. -/
  inCall
    : ∃ before behind,
        tree.childIds call = before ++ receiver.id :: behind
        ∧ after.childIds call = (tree.size + 2) :: (before ++ behind)
  firstQualifier : after.childAt? call .qualifier = some (tree.size + 2)

variable {tree : Tree}

/-- The place of a child is the number of children in front of it. -/
theorem children_around {parent child : NodeId} (member : child ∈ tree.childIds parent)
    (up : tree.parent? child = some parent)
    : ∃ before behind,
        tree.childIds parent = before ++ child :: behind
        ∧ (tree.indexInParent? child).getD 0 = before.length := by
  obtain ⟨place, isPlace⟩ : ∃ place, (tree.childIds parent).idxOf? child = some place :=
    Option.ne_none_iff_exists'.mp fun absent => List.idxOf?_eq_none_iff.mp absent member
  obtain ⟨inside, here, _⟩ := List.idxOf?_eq_some_iff.mp isPlace
  refine ⟨(tree.childIds parent).take place, (tree.childIds parent).drop (place + 1), ?_, ?_⟩
  · have split : (tree.childIds parent).drop place
        = child :: (tree.childIds parent).drop (place + 1) := by
      rw [List.drop_eq_getElem_cons inside, here]
    rw [← split, List.take_append_drop]
  · rw [indexInParent?, up, Option.bind_some, isPlace, Option.getD_some,
      List.length_take_of_le (Nat.le_of_lt inside)]

/-- What comes at the place of a child comes right before the child. -/
theorem insertIdx_before {parent child : NodeId} (member : child ∈ tree.childIds parent)
    (up : tree.parent? child = some parent) (new : NodeId)
    : ∃ before behind,
        tree.childIds parent = before ++ child :: behind
        ∧ (tree.childIds parent).insertIdx
            (min ((tree.indexInParent? child).getD 0) (tree.childIds parent).length) new
          = before ++ new :: child :: behind := by
  obtain ⟨before, behind, split, place⟩ := children_around member up
  have inside : before.length ≤ (before ++ child :: behind).length := by
    rw [List.length_append]
    exact Nat.le_add_right _ _
  refine ⟨before, behind, split, ?_⟩
  rw [place, split, Nat.min_eq_left inside, insertIdx_eq_append inside, List.take_left,
    List.drop_left]

/-- A child taken out of the children leaves the others in their order. -/
theorem Linked.filter_child (linked : tree.Linked) {parent child : NodeId}
    (member : child ∈ tree.childIds parent)
    : ∃ before behind,
        tree.childIds parent = before ++ child :: behind
        ∧ (tree.childIds parent).filter (· != child) = before ++ behind := by
  obtain ⟨before, behind, split, absent⟩ := List.eq_append_cons_of_mem member
  have unique := linked.unique parent
  rw [split] at unique
  have absentBehind : child ∉ behind := (List.nodup_cons.mp unique.of_append_right).1
  have others {ids : List NodeId} (absent : child ∉ ids) : ids.filter (· != child) = ids :=
    List.filter_eq_self.mpr fun id among =>
      bne_iff_ne.mpr fun same => absent (same ▸ among)
  refine ⟨before, behind, split, ?_⟩
  rw [split, List.filter_append, List.filter_cons_of_neg (by simp), others absent,
    others absentBehind]

namespace Introduces

variable {call block : NodeId} {receiver : Subtree} {index : Nat} {name typeName : String}

/-- What is strictly below the receiver is neither the call, the receiver nor the block. -/
theorem sameNode_below (introduces : tree.Introduces call receiver.id block)
    (linked : tree.Linked) {id : NodeId} (below : tree.Above receiver.id id)
    : tree.SameNode (tree.withVariable call receiver.id block index name typeName) id := by
  have last : tree.IsParent call receiver.id := introduces.below linked
  refine introduces.sameNode linked (linked.above_lt below).2 ?_ ?_ ?_
  · rintro rfl
    exact linked.acyclic id (.head last below)
  · rintro rfl
    exact linked.acyclic _ below
  · rintro rfl
    exact linked.acyclic id ((introduces.around.tail last).trans below)

/-- The receiver is moved with its whole subtree. -/
theorem receiver_shown (introduces : tree.Introduces call receiver.id block)
    (linked : tree.Linked) (shown : tree.subtree? receiver.id = some receiver)
    (afterLinked : (tree.withVariable call receiver.id block index name typeName).Linked)
    : (tree.withVariable call receiver.id block index name typeName).subtree? receiver.id
      = some (.mk receiver.id { receiver.content with role := .initializer }
          receiver.children) := by
  have old := introduces.receiverOld linked
  obtain ⟨receiverCall, receiverBlock, _⟩ := introduces.distinct linked
  refine afterLinked.subtree?_of_children ?_ ?_ fun child member => ?_
  · rw [introduces.content? linked old, if_pos rfl, content?_of_shown shown, Option.map_some]
  · rw [introduces.childIds linked old, if_neg receiverCall, if_neg receiverBlock,
      subtree?_children shown]
  · refine linked.subtree?_of_same afterLinked (subtree?_of_mem_children shown member).1 ?_
    intro id way
    have first : tree.IsParent receiver.id child.id := linked.parent?_of_mem_children shown member
    exact introduces.sameNode_below linked (TransGen.head' first way)

/-- The attached nodes stay attached, and the three new ones come to them. -/
theorem attached_iff (introduces : tree.Introduces call receiver.id block)
    (coherent : tree.Coherent) (attached : tree.Attached call)
    (afterCoherent
      : (tree.withVariable call receiver.id block index name typeName).Coherent)
    (id : NodeId)
    : (tree.withVariable call receiver.id block index name typeName).Attached id
      ↔ tree.Attached id ∨ id ∈ [tree.size, tree.size + 1, tree.size + 2] := by
  have linked := coherent.toLinked
  have callOld := introduces.callOld linked
  have receiverOld := introduces.receiverOld linked
  have blockOld := introduces.blockOld linked
  have pruned : tree.Pruned (fun _ => False)
      (tree.withVariable call receiver.id block index name typeName) :=
    introduces.pruned linked
  have kept {id : NodeId} (before : tree.Attached id)
      : (tree.withVariable call receiver.id block index name typeName).Attached id :=
    pruned.attached_after coherent before not_false
  have declaration
      : (tree.withVariable call receiver.id block index name typeName).Attached tree.size := by
    refine (kept (coherent.attached_upward attached introduces.around.to_reflTransGen)).tail ?_
    rw [IsParent, Tree.parent?, withVariable_declaration callOld receiverOld blockOld]
    rfl
  have declared
      : (tree.withVariable call receiver.id block index name typeName).Attached
          (tree.size + 1) := by
    refine declaration.tail ?_
    rw [IsParent, Tree.parent?, withVariable_variable callOld receiverOld blockOld]
    rfl
  have reference
      : (tree.withVariable call receiver.id block index name typeName).Attached
          (tree.size + 2) := by
    refine (kept attached).tail ?_
    rw [IsParent, Tree.parent?, withVariable_reference callOld]
    rfl
  have new (id : NodeId) (least : tree.size ≤ id)
      (inside : id < (tree.withVariable call receiver.id block index name typeName).size)
      : (tree.withVariable call receiver.id block index name typeName).Attached id := by
    rw [withVariable_size] at inside
    rcases among_next_three least inside with rfl | rfl | rfl
    · exact declaration
    · exact declared
    · exact reference
  rw [pruned.attached_iff_or_new coherent afterCoherent new, withVariable_size,
    and_iff_left not_false]
  simp only [List.mem_cons, List.not_mem_nil, or_false]
  refine or_congr_right ⟨fun inside => among_next_three inside.1 inside.2, ?_⟩
  rintro (rfl | rfl | rfl) <;> simp

/-- A declaration put at the place of a statement, with the rest of the new nodes, hoists the
receiver.
-/
theorem hoisted (introduces : tree.Introduces call receiver.id block) (coherent : tree.Coherent)
    (shown : tree.subtree? receiver.id = some receiver) {statement : NodeId}
    (inBlock : tree.parent? statement = some block) (attached : tree.Attached call)
    (afterCoherent
      : (tree.withVariable call receiver.id block ((tree.indexInParent? statement).getD 0) name
          typeName).Coherent)
    : tree.Hoisted call receiver statement block name typeName
        (tree.withVariable call receiver.id block ((tree.indexInParent? statement).getD 0) name
          typeName) := by
  have linked := coherent.toLinked
  have callOld := introduces.callOld linked
  have receiverOld := introduces.receiverOld linked
  have blockOld := introduces.blockOld linked
  have callBlock := (introduces.distinct linked).2.2
  constructor
  · exact withVariable_sameFile
  · exact withVariable_root
  · exact withVariable_size
  · exact introduces.attached_iff coherent attached afterCoherent
  · intro id old other
    rw [introduces.content? linked old, if_neg other]
  · exact introduces.receiver_shown linked shown afterCoherent.toLinked
  · exact withVariable_declaration callOld receiverOld blockOld
  · exact withVariable_variable callOld receiverOld blockOld
  · exact withVariable_reference callOld
  · intro id old other
    rw [introduces.parent? linked old, if_neg other]
  · intro id old notCall notBlock
    rw [introduces.childIds linked old, if_neg notCall, if_neg notBlock]
  · obtain ⟨before, behind, split, hung⟩ :=
      insertIdx_before (linked.agree.mpr inBlock) inBlock tree.size
    refine ⟨before, behind, split, ?_⟩
    rw [introduces.childIds linked blockOld, if_neg callBlock.symm, if_pos rfl, hung]
  · obtain ⟨before, behind, split, rest⟩ :=
      linked.filter_child (linked.agree.mpr (introduces.below linked))
    refine ⟨before, behind, split, ?_⟩
    rw [introduces.childIds linked callOld, if_pos rfl, rest]
  · exact introduces.receiver_again linked

end Introduces

namespace Hoisted

variable {call statement block : NodeId} {receiver : Subtree} {name typeName : String}
  {after : Tree}

/-- The receiver hangs below the variable. -/
theorem receiver_parent
    (hoisted : tree.Hoisted call receiver statement block name typeName after)
    (afterLinked : after.Linked)
    : after.parent? receiver.id = some (tree.size + 1) := by
  refine afterLinked.agree.mp ?_
  rw [childIds, hoisted.declared]
  exact List.mem_cons_self

theorem declaration_parent
    (hoisted : tree.Hoisted call receiver statement block name typeName after)
    : after.parent? tree.size = some block := by
  rw [parent?, hoisted.declaration, Option.bind_some]

/-- The block and what is above it say what they did and hang where they did. -/
theorem unmoved (hoisted : tree.Hoisted call receiver statement block name typeName after)
    (linked : tree.Linked) (around : tree.Above block receiver.id) {id : NodeId}
    (way : ReflTransGen tree.IsParent id block)
    : after.parent? id = tree.parent? id ∧ after.content? id = tree.content? id := by
  have higher : tree.Above id receiver.id := TransGen.trans_right way around
  have old : id < tree.size := (linked.above_lt higher).1
  have other : id ≠ receiver.id := fun same => linked.acyclic _ (same ▸ higher)
  exact ⟨hoisted.parents id old other, hoisted.contents id old other⟩

/-- The block stays a block. -/
theorem kind?_block (hoisted : tree.Hoisted call receiver statement block name typeName after)
    (linked : tree.Linked) (around : tree.Above block receiver.id)
    : after.kind? block = tree.kind? block := by
  rw [kind?, kind?, (hoisted.unmoved linked around .refl).2]

end Hoisted

end Tree

namespace Fix

open TreeLint.Tree

/-- The fix that introduces a variable for an attached call hoists the first qualifier of the call out
of the nearest statement of a block around it, and changes nothing else.
-/
theorem introduceVariable_hoists {tree after : Tree} (reachable : tree.Reachable)
    {anchor : NodeId} (attached : tree.Attached anchor)
    (succeeded : (introduceVariable.applyAt anchor).apply tree = (.ok (), after))
    : ∃ receiver statement block,
        (tree.subtree? anchor).bind (·.childWithRole? .qualifier) = some receiver
        ∧ (tree.ancestors anchor).find? (isBlockStatement tree) = some statement
        ∧ tree.parent? statement = some block
        ∧ tree.kind? block = some .codeBlock
        ∧ tree.Hoisted anchor receiver statement block (variableName receiver.stripParentheses)
            (receiver.typeName?.getD "var") after := by
  have coherent := reachable.coherent
  have afterCoherent := coherent_of_applyAt coherent succeeded
  obtain ⟨receiver, statement, block, isReceiver, nearest, inBlock, introduces, rfl⟩ :=
    introduceVariable_moves coherent succeeded
  obtain ⟨call, callShown, found⟩ := Option.bind_eq_some_iff.mp isReceiver
  have shown := (subtree?_of_mem_children callShown (List.mem_of_find?_eq_some found)).1
  exact ⟨receiver, statement, block, isReceiver, nearest, inBlock, introduces.isBlock,
    introduces.hoisted coherent shown inBlock attached afterCoherent⟩

end Fix

/-- A file with a chained call, its argument behind its receiver, in the middle of a block. -/
def chainInTheMiddle : Document where
  root :=
    Outline.file.withChild <| (Outline.namedClass "A").withChild <|
      (Outline.method "m").withChild <|
        ((Outline.codeBlock.withChild
          (Outline.expressionStatement (Outline.call "first" none))).withChild
          (Outline.expressionStatement
            ((Outline.call "put"
              (some (Outline.call "getMap" (some (Outline.referenceExpression "a"))))).withArgument
              (Outline.referenceExpression "b")))).withChild
          (Outline.expressionStatement (Outline.call "last" none))

/-- The map gets a variable, declared between the first statement and the one that puts into it. -/
theorem chainInTheMiddle_hoisted
    : let tree := Tree.ofDocument chainInTheMiddle
      ∃ receiver after,
        (Fix.introduceVariable.applyAt 7).apply tree = (.ok (), after)
        ∧ receiver.id = 8
        ∧ tree.Hoisted 7 receiver 6 3 "map" "var" after
        ∧ after.childIds 3 = [4, 13, 6, 11]
        ∧ after.childIds 7 = [15, 10] := by
  intro tree
  have coherent : tree.Coherent := Tree.ofDocument_coherent chainInTheMiddle
  have attached : tree.Attached 7 := coherent.attached_iff.mpr (by decide +kernel)
  have link : tree.parent? 7 = some 6 := by decide +kernel
  have inBlock : Fix.isBlockStatement tree 6 := by decide +kernel
  have receiverAt : tree.childAt? 7 .qualifier = some 8 := by decide +kernel
  obtain ⟨after, succeeded⟩ :=
    Fix.introduceVariable_ok coherent rfl receiverAt (.single link) inBlock
  obtain ⟨receiver, statement, block, isReceiver, nearest, up, _, hoisted⟩ :=
    Fix.introduceVariable_hoists (.loaded chainInTheMiddle) attached succeeded
  have isStatement : (tree.ancestors 7).find? (Fix.isBlockStatement tree) = some 6 := by
    decide +kernel
  have isBlock : tree.parent? 6 = some 3 := by decide +kernel
  cases nearest.symm.trans isStatement
  cases up.symm.trans isBlock
  have told : ((tree.subtree? 7).bind (·.childWithRole? .qualifier)).map (fun node =>
      (node.id, Fix.variableName node.stripParentheses, node.typeName?.getD "var"))
        = some (8, "map", "var") := by
    decide +kernel
  rw [isReceiver] at told
  obtain ⟨number, name, typeName⟩ :
      receiver.id = 8 ∧ Fix.variableName receiver.stripParentheses = "map"
        ∧ receiver.typeName?.getD "var" = "var" := by
    simpa using told
  rw [name, typeName] at hoisted
  have children : (fun result : Tree => (result.childIds 3, result.childIds 7))
      ((Fix.introduceVariable.applyAt 7).apply tree).2 = ([4, 13, 6, 11], [15, 10]) := by
    decide +kernel
  rw [succeeded] at children
  obtain ⟨inBlock, inCall⟩ := Prod.mk.inj children
  exact ⟨receiver, after, succeeded, number, hoisted, inBlock, inCall⟩

end TreeLint
