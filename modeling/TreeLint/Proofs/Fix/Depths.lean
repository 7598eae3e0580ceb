import TreeLint.Proofs.Fix.CutOffs
import TreeLint.Proofs.Tree.Levels

/-! How deep the fixes make a tree. What was there comes no deeper and says no more, and what is new
stands no deeper than something that was there. The one exception is the written type that a field
gets: it hangs one level below the field.
-/

namespace TreeLint

open Relation

/-- Text says no more than the node did that it replaces. -/
theorem Content.asText_nesting_le (content : Content) (text : String)
    : (content.asText text).nesting ≤ content.nesting :=
  Content.nesting_le_of (fun some => absurd rfl some) rfl (.inr rfl)

/-- A written type says nothing but its name. -/
theorem Outline.typeElement_nesting (typeName : String)
    : (Outline.typeElement typeName).content.nesting ≤ 2 :=
  Content.nesting_le_two rfl Facts.depth_default

namespace Tree

variable {tree after : Tree}

-----------------------------------------------------------------------------------------
-- Written types
-----------------------------------------------------------------------------------------

/-- The node is the type written for a field, and nothing else is said about it. -/
structure TypeOf (tree : Tree) (field id : NodeId) : Prop where
  content : ∃ typeName, tree.content? id = some (Outline.typeElement typeName).content
  below : tree.parent? id = some field
  isField : tree.kind? field = some .field

namespace TypeOf

variable {field id : NodeId}

theorem kind (typeOf : tree.TypeOf field id) : tree.kind? id = some .typeElement := by
  obtain ⟨typeName, isType⟩ := typeOf.content
  exact kind?_eq_some_iff.mpr ⟨_, isType, rfl⟩

/-- A node of another kind is no written type. -/
theorem not_of_kind {kind : NodeKind} (isKind : tree.kind? id = some kind)
    (other : kind ≠ .typeElement)
    : ¬tree.TypeOf field id :=
  fun typeOf => other (Option.some.inj (isKind.symm.trans typeOf.kind))

/-- A written type has no role. -/
theorem role (typeOf : tree.TypeOf field id) {content : Content}
    (known : tree.content? id = some content)
    : content.role = .other := by
  obtain ⟨typeName, isType⟩ := typeOf.content
  cases known.symm.trans isType
  rfl

/-- A node is a written type still if it and its field are said to be what they were. -/
theorem still (typeOf : tree.TypeOf field id) (content : after.content? id = tree.content? id)
    (parent : after.parent? id = tree.parent? id) (isField : after.kind? field = tree.kind? field)
    : after.TypeOf field id := by
  obtain ⟨typeName, isType⟩ := typeOf.content
  exact ⟨⟨typeName, content.trans isType⟩, parent.trans typeOf.below, isField.trans typeOf.isField⟩

end TypeOf

-----------------------------------------------------------------------------------------
-- Trees that get no deeper
-----------------------------------------------------------------------------------------

/-- Of what was there, all that is attached to the second tree was attached to the first, no higher
up, and no node says more than it did.
-/
structure NoLower (tree after : Tree) : Prop where
  coherent : after.Coherent
  grows : tree.size ≤ after.size
  kept
    : ∀ id < tree.size, after.Attached id → tree.Attached id ∧ after.level id ≤ tree.level id
  contents
    : ∀ id content,
        tree.content? id = some content
        → ∃ now, after.content? id = some now ∧ now.nesting ≤ content.nesting

/-- The node is attached no deeper than some node was that was no written type. -/
def StandsBy (tree after : Tree) (id : NodeId) : Prop :=
  ∃ other,
    tree.Attached other
    ∧ (∀ field, ¬tree.TypeOf field other)
    ∧ after.level id ≤ tree.level other

/-- A fix at the anchor makes the tree no deeper than it was: a new node says little and is no deeper
than some node was, or is the written type that the anchor gets.
-/
structure NoDeeper (tree : Tree) (fix : Fix) (anchor : NodeId) (after : Tree) : Prop
    extends NoLower tree after where
  news
    : ∀ id content,
        tree.size ≤ id
        → after.Attached id
        → after.content? id = some content
        → content.nesting ≤ 2
          ∧ (tree.StandsBy after id
            ∨ fix = .splitDeclaration
              ∧ after.TypeOf anchor id
              ∧ tree.Attached anchor
              ∧ after.level id ≤ tree.level anchor + 1)
  /-- The written type of a field is left alone, unless it is the anchor or something hangs below. -/
  types
    : ∀ field id,
        tree.TypeOf field id
        → id ≠ anchor
        → (∀ child, tree.parent? child ≠ some id)
        → after.Attached id
        → after.TypeOf field id

variable {fix : Fix} {anchor : NodeId} {lost : NodeId → Prop}

/-- What hangs below an old node is attached one level below where that was, at most. -/
theorem NoLower.level_of_parent (noLower : tree.NoLower after) {id upper : NodeId}
    (up : after.parent? id = some upper) (old : upper < tree.size) (attached : after.Attached id)
    : tree.Attached upper ∧ after.level id ≤ tree.level upper + 1 := by
  have upperAttached := noLower.coherent.attached_upward attached (.single up)
  obtain ⟨before, nearer⟩ := noLower.kept upper old upperAttached
  refine ⟨before, ?_⟩
  rw [noLower.coherent.level_of_parent up]
  exact Nat.succ_le_succ nearer

/-- A tree of which nodes are cut off, or moved to no deeper places, gets no lower. -/
theorem Pruned.noLower (pruned : tree.Pruned lost after) (coherent : tree.Coherent)
    (afterCoherent : after.Coherent)
    (links
      : ∀ id < tree.size,
          after.parent? id = tree.parent? id
          ∨ ¬after.Attached id
          ∨ ∃ home < tree.size,
              after.Above home id
              ∧ after.level id + tree.level home ≤ tree.level id + after.level home)
    (contents
      : ∀ id content,
          tree.content? id = some content
          → ∃ now, after.content? id = some now ∧ now.nesting ≤ content.nesting)
    : tree.NoLower after where
  coherent := afterCoherent
  grows := pruned.grows
  kept _ old now :=
    ⟨(pruned.attached_before coherent afterCoherent old now).1,
      coherent.level_le_of_links afterCoherent links old now⟩
  contents := contents

/-- A tree that only got no lower and has no new nodes is no deeper. -/
theorem NoLower.noDeeper (noLower : tree.NoLower after) (size : after.size = tree.size)
    (types
      : ∀ field id,
          tree.TypeOf field id
          → id ≠ anchor
          → (∀ child, tree.parent? child ≠ some id)
          → after.Attached id
          → after.TypeOf field id)
    : tree.NoDeeper fix anchor after where
  toNoLower := noLower
  news _ _ new _ known :=
    absurd (size ▸ lt_size_of_content? known) (Nat.not_lt_of_le new)
  types := types

-----------------------------------------------------------------------------------------
-- Fixes without new nodes
-----------------------------------------------------------------------------------------

/-- Saying something that takes no more containers at a node makes a tree no deeper. -/
theorem Coherent.reword_noDeeper (coherent : tree.Coherent) (anchor : NodeId)
    {f : Content → Content} (nesting : ∀ content, (f content).nesting ≤ content.nesting)
    (kind : ∀ content, (f content).kind = content.kind)
    : tree.NoDeeper fix anchor (tree.reword anchor f) := by
  have pruned := (tree.reword_frame anchor f).pruned fun id member => nomatch member
  have noLower := pruned.noLower coherent (coherent.reword anchor f)
    (fun id _ => .inl (reword_parent? tree anchor f id)) (by
      intro id content before
      rw [reword_content?, before]
      split
      · exact ⟨_, rfl, nesting content⟩
      · exact ⟨content, rfl, Nat.le_refl _⟩)
  refine noLower.noDeeper (reword_size tree anchor f) fun field id typeOf other _ _ => ?_
  refine typeOf.still ?_ (reword_parent? tree anchor f id) ?_
  · rw [reword_content?, if_neg other]
  · obtain ⟨content, known, _⟩ := kind?_eq_some_iff.mp typeOf.isField
    rw [kind?, kind?, reword_content?, known]
    split
    · exact congrArg some (kind content)
    · rfl

/-- Text in the place of a node makes a tree no deeper. -/
theorem Coherent.fragment_noDeeper (coherent : tree.Coherent) (anchor : NodeId) (text : String)
    : tree.NoDeeper fix anchor (tree.fragment anchor text) := by
  have apart {id : NodeId} (member : id ∈ tree.childIds anchor)
      : ¬(tree.fragment anchor text).Attached id := by
    refine not_attached_of_top (by rw [fragment_parent?, if_pos member]) ?_
    rw [fragment_root]
    exact coherent.ne_root (coherent.agree.mp member)
  have parents {id : NodeId} (other : id ∉ tree.childIds anchor)
      : (tree.fragment anchor text).parent? id = tree.parent? id := by
    rw [fragment_parent?, if_neg other]
  have noLower := (coherent.fragment_pruned anchor text).noLower coherent
    (coherent.fragment anchor text)
    (fun id _ => by
      by_cases member : id ∈ tree.childIds anchor
      · exact .inr (.inl (apart member))
      · exact .inl (parents member))
    (fun id content before => by
      rw [fragment_content?, before]
      split
      · exact ⟨_, rfl, content.asText_nesting_le text⟩
      · exact ⟨content, rfl, Nat.le_refl _⟩)
  refine noLower.noDeeper (fragment_size tree anchor text) fun field id typeOf other _ now => ?_
  have outside : id ∉ tree.childIds anchor := fun member => apart member now
  have fieldApart : field ≠ anchor := by
    rintro rfl
    exact outside (coherent.agree.mpr typeOf.below)
  refine typeOf.still ?_ (parents outside) ?_
  · rw [fragment_content?, if_neg other]
  · rw [kind?, fragment_content?, if_neg fieldApart, kind?]

/-- Cutting children off makes a tree no deeper. -/
theorem Coherent.cutAll_noDeeper (coherent : tree.Coherent) {parent : NodeId} {ids : List NodeId}
    (below : ∀ id ∈ ids, tree.parent? id = some parent)
    (afterCoherent : (tree.cutAll parent ids).Coherent)
    : tree.NoDeeper fix anchor (tree.cutAll parent ids) := by
  have apart {id : NodeId} (member : id ∈ ids) : ¬(tree.cutAll parent ids).Attached id := by
    refine not_attached_of_top (by rw [cutAll_parent?, if_pos member]) ?_
    rw [cutAll_root]
    exact coherent.ne_root (below id member)
  have parents {id : NodeId} (other : id ∉ ids)
      : (tree.cutAll parent ids).parent? id = tree.parent? id := by
    rw [cutAll_parent?, if_neg other]
  have noLower := (coherent.cutAll_pruned below).noLower coherent afterCoherent
    (fun id _ => by
      by_cases member : id ∈ ids
      · exact .inr (.inl (apart member))
      · exact .inl (parents member))
    (fun id content before => ⟨content, by rwa [cutAll_content?], Nat.le_refl _⟩)
  refine noLower.noDeeper (cutAll_size tree parent ids) fun field id typeOf _ _ now => ?_
  refine typeOf.still (cutAll_content? tree parent ids id) (parents fun member => apart member now) ?_
  rw [kind?, kind?, cutAll_content?]

-----------------------------------------------------------------------------------------
-- Declarations and types that are new
-----------------------------------------------------------------------------------------

/-- A variable in a new declaration is as deep as it was, and the declaration as deep as the old one.
-/
theorem DeclaredIn.noDeeper {statement declared block : NodeId} {index : Nat}
    (declaredIn : tree.DeclaredIn statement declared block) (coherent : tree.Coherent)
    (afterCoherent : (tree.withDeclared statement declared block index).Coherent)
    : tree.NoDeeper fix anchor (tree.withDeclared statement declared block index) := by
  let after := tree.withDeclared statement declared block index
  have blockOld := coherent.parent_lt declaredIn.inBlock
  have up : after.parent? tree.size = some block := DeclaredIn.parent?_new
  have declaredUp : after.parent? declared = some tree.size := by
    rw [declaredIn.parent? declaredIn.old, if_pos rfl]
  have contents {id : NodeId} (old : id < tree.size) : after.content? id = tree.content? id :=
    DeclaredIn.content?_of_lt old
  have pruned : tree.Pruned (fun _ => False) after :=
    declaredIn.frame.pruned fun id member => by
      obtain rfl := List.mem_singleton.mp member
      exact ⟨block, .tail (.single declaredIn.inBlock) declaredIn.below,
        .tail (.single up) declaredUp⟩
  have noLower := pruned.noLower coherent afterCoherent
    (fun id old => by
      by_cases moves : id = declared
      · subst moves
        have now : after.level id = after.level block + 2 := by
          rw [afterCoherent.level_of_parent declaredUp, afterCoherent.level_of_parent up]
        refine .inr (.inr ⟨block, blockOld, .tail (.single up) declaredUp, ?_⟩)
        rw [now, coherent.level_of_parent declaredIn.below,
          coherent.level_of_parent declaredIn.inBlock]
        omega
      · exact .inl (by rw [declaredIn.parent? old, if_neg moves]))
    (fun id content before =>
      ⟨content, (contents (lt_size_of_content? before)).trans before, Nat.le_refl _⟩)
  refine ⟨noLower, ?_, ?_⟩
  · intro id content new attached known
    obtain rfl := eq_size_of_new DeclaredIn.size new (lt_size_of_content? known)
    cases known.symm.trans DeclaredIn.content?_new
    obtain ⟨blockAttached, level⟩ := noLower.level_of_parent up blockOld attached
    refine ⟨Content.nesting_le_two rfl Facts.depth_default, .inl ⟨statement, ?_, ?_, ?_⟩⟩
    · exact blockAttached.tail declaredIn.inBlock
    · exact fun field => TypeOf.not_of_kind declaredIn.isDeclaration (by decide)
    · rwa [coherent.level_of_parent declaredIn.inBlock]
  · intro field id typeOf _ _ _
    have old := lt_size_of_parent? typeOf.below
    refine typeOf.still (contents old) ?_ ?_
    · rw [declaredIn.parent? old, if_neg]
      rintro rfl
      exact TypeOf.not_of_kind declaredIn.isVariable (by decide) typeOf
    · rw [kind?, contents (lt_size_of_kind? typeOf.isField), kind?]

/-- The written type of a field hangs one level below the field. -/
theorem Coherent.withType_noDeeper (coherent : tree.Coherent) {typeName : String}
    (isField : tree.kind? anchor = some .field)
    (afterCoherent : (tree.withType anchor typeName).Coherent)
    : tree.NoDeeper .splitDeclaration anchor (tree.withType anchor typeName) := by
  have fieldOld := lt_size_of_kind? isField
  have frame : tree.Frame [] (tree.withType anchor typeName) := withType_frame
  have parents {id : NodeId} (old : id < tree.size)
      : (tree.withType anchor typeName).parent? id = tree.parent? id :=
    frame.parents id old (List.not_mem_nil)
  have contents {id : NodeId} (old : id < tree.size)
      : (tree.withType anchor typeName).content? id = tree.content? id :=
    withType_content?_of_lt old
  have kinds {id : NodeId} (old : id < tree.size)
      : (tree.withType anchor typeName).kind? id = tree.kind? id :=
    congrArg (Option.map _) (contents old)
  have up : (tree.withType anchor typeName).parent? tree.size = some anchor := by
    rw [← afterCoherent.agree, withType_childIds fieldOld fieldOld, if_pos rfl]
    exact List.mem_cons_self
  have noLower := (frame.pruned fun id member => nomatch member).noLower coherent afterCoherent
    (fun id old => .inl (parents old))
    (fun id content before =>
      ⟨content, (contents (lt_size_of_content? before)).trans before, Nat.le_refl _⟩)
  refine ⟨noLower, ?_, ?_⟩
  · intro id content new attached known
    obtain rfl := eq_size_of_new withType_size new (lt_size_of_content? known)
    have isType : (tree.withType anchor typeName).content? tree.size = _ := withType_content?_new
    cases known.symm.trans isType
    obtain ⟨fieldAttached, level⟩ := noLower.level_of_parent up fieldOld attached
    exact ⟨Outline.typeElement_nesting typeName,
      .inr ⟨rfl, ⟨⟨typeName, isType⟩, up, (kinds fieldOld).trans isField⟩, fieldAttached, level⟩⟩
  · intro field id typeOf _ _ _
    have old := lt_size_of_parent? typeOf.below
    exact typeOf.still (contents old) (parents old) (kinds (lt_size_of_kind? typeOf.isField))

-----------------------------------------------------------------------------------------
-- Variables and classes that are new
-----------------------------------------------------------------------------------------

/-- A new variable stands no deeper than the receiver that it is for, if a statement is between the
call and the block.
-/
theorem Introduces.noDeeper {call receiver block : NodeId} {index : Nat} {name typeName : String}
    (introduces : tree.Introduces call receiver block) (coherent : tree.Coherent)
    (between : tree.level block + 2 ≤ tree.level call)
    (afterCoherent : (tree.withVariable call receiver block index name typeName).Coherent)
    : tree.NoDeeper fix anchor (tree.withVariable call receiver block index name typeName) := by
  let after := tree.withVariable call receiver block index name typeName
  have afterCoherent : after.Coherent := afterCoherent
  have linked := coherent.toLinked
  have callOld := introduces.callOld linked
  have receiverOld := introduces.receiverOld linked
  have blockOld := introduces.blockOld linked
  have below := introduces.below linked
  have parents {id : NodeId} (old : id < tree.size)
      : after.parent? id = if id = receiver then some (tree.size + 1) else tree.parent? id :=
    introduces.parent? linked old
  have declarationUp : after.parent? tree.size = some block := by
    rw [Tree.parent?, withVariable_declaration callOld receiverOld blockOld]
    rfl
  have variableUp : after.parent? (tree.size + 1) = some tree.size := by
    rw [Tree.parent?, withVariable_variable callOld receiverOld blockOld]
    rfl
  have referenceUp : after.parent? (tree.size + 2) = some call := by
    rw [Tree.parent?, withVariable_reference callOld]
    rfl
  have receiverUp : after.parent? receiver = some (tree.size + 1) := by
    rw [parents receiverOld, if_pos rfl]
  have receiverNoType : ∀ field, ¬tree.TypeOf field receiver := by
    have isReceiver := introduces.receiverAt
    rw [childAt?] at isReceiver
    have isReceiver := List.find?_some isReceiver
    obtain ⟨content, known, role⟩ := (Option.any_eq_true _ _).mp isReceiver
    exact fun field typeOf =>
      Role.noConfusion ((eq_of_beq role).symm.trans (typeOf.role known))
  have pruned : tree.Pruned (fun _ => False) after := introduces.pruned linked
  have noLower := pruned.noLower coherent afterCoherent
    (fun id old => by
      by_cases moves : id = receiver
      · subst moves
        have now : after.level id = after.level block + 3 := by
          rw [afterCoherent.level_of_parent receiverUp, afterCoherent.level_of_parent variableUp,
            afterCoherent.level_of_parent declarationUp]
        refine .inr (.inr ⟨block, blockOld, introduces.above_receiver linked, ?_⟩)
        rw [now, coherent.level_of_parent below]
        omega
      · exact .inl ((parents old).trans (if_neg moves)))
    (fun id content before => by
      rw [introduces.content? linked (lt_size_of_content? before), before]
      split
      · exact ⟨_, rfl, Content.nesting_le_of (fun some => some) rfl (.inl rfl)⟩
      · exact ⟨content, rfl, Nat.le_refl _⟩)
  have receiverAttached (attached : tree.Attached block) : tree.Attached receiver :=
    attached.trans (introduces.around.tail below).to_reflTransGen
  change tree.NoDeeper fix anchor after
  refine ⟨noLower, ?_, ?_⟩
  · intro id content new attached known
    rcases introduces.content?_new linked new known with ⟨rfl, rfl⟩ | ⟨rfl, rfl⟩ | ⟨rfl, rfl⟩
    · obtain ⟨blockAttached, level⟩ := noLower.level_of_parent declarationUp blockOld attached
      refine ⟨Content.nesting_le_two rfl Facts.depth_default, .inl ⟨receiver,
        receiverAttached blockAttached, receiverNoType, ?_⟩⟩
      rw [coherent.level_of_parent below]
      omega
    · have upper := afterCoherent.attached_upward attached (.single variableUp)
      obtain ⟨blockAttached, level⟩ := noLower.level_of_parent declarationUp blockOld upper
      refine ⟨Content.nesting_le_two rfl (Facts.depth_ofType typeName), .inl ⟨receiver,
        receiverAttached blockAttached, receiverNoType, ?_⟩⟩
      rw [afterCoherent.level_of_parent variableUp, coherent.level_of_parent below]
      omega
    · obtain ⟨callAttached, level⟩ := noLower.level_of_parent referenceUp callOld attached
      refine ⟨Content.nesting_le_two rfl (Facts.depth_ofType typeName), .inl ⟨receiver,
        callAttached.tail below, receiverNoType, ?_⟩⟩
      rwa [coherent.level_of_parent below]
  · intro field id typeOf _ _ _
    have old := lt_size_of_parent? typeOf.below
    have other : id ≠ receiver := by
      rintro rfl
      exact receiverNoType field typeOf
    refine typeOf.still ?_ ((parents old).trans (if_neg other)) ?_
    · rw [introduces.content? linked old, if_neg other]
    · obtain ⟨content, known, _⟩ := kind?_eq_some_iff.mp typeOf.isField
      rw [kind?, kind?, introduces.content? linked (lt_size_of_content? known), known]
      split <;> rfl

/-- Neither the new class nor its base says more than two containers hold. -/
theorem innerClassOutline_nesting {name base : String} {content : Content}
    (member : content ∈ (Fix.innerClassOutline name base).contents)
    : content.nesting ≤ 2 := by
  rcases List.mem_cons.mp member with rfl | member
  · exact Content.nesting_le_two rfl Facts.depth_default
  · cases List.mem_singleton.mp member
    exact Content.nesting_le_two rfl Facts.depth_default

section Named

variable {anonymous : Subtree} {creation outer : NodeId} {name base : String} {filled : Tree}
  (text : String) (coherent : tree.Coherent)
  (shown : tree.subtree? anonymous.id = some anonymous)
  (created : tree.parent? anonymous.id = some creation)
  (around : tree.enclosingClass? anonymous.id = some outer)
  (moved
    : (tree.grow (Fix.innerClassOutline name base)).MovedInto anonymous.id tree.size
        (Fix.movedMembers anonymous) filled)
  (hangable : filled.Hangable outer tree.size)

include coherent shown created moved hangable

/-- The base of the new class hangs below the class. -/
theorem Coherent.parent?_of_base
    : ((filled.hang outer (filled.childIds outer).length tree.size).fragment creation text).parent?
        (tree.size + 1)
      = some tree.size := by
  have notMember : tree.size + 1 ∉ Fix.movedMembers anonymous := fun member =>
    Nat.not_succ_lt_self (lt_size_of_parent? ((coherent.mem_movedMembers_iff shown).mp member).1)
  have up : (filled.hang outer (filled.childIds outer).length tree.size).parent? (tree.size + 1)
      = some tree.size := by
    rw [hang_parent? hangable.childPresent, if_neg (Nat.succ_ne_self _), moved.parents,
      if_neg notMember, parent?, grow_node?_add]
    rfl
  have notPart : tree.size + 1
      ∉ (filled.hang outer (filled.childIds outer).length tree.size).childIds creation := by
    rw [(moved.coherent.hang hangable _).agree, up]
    exact fun same => Nat.ne_of_gt (coherent.parent_lt created) (Option.some.inj same)
  rw [fragment_parent?, if_neg notPart, up]

include around

/-- If the new class is attached, it hangs in a class that is above the creation: the class around is
not what is replaced by text.
-/
theorem Coherent.outer_of_attached
    : let after :=
        (filled.hang outer (filled.childIds outer).length tree.size).fragment creation text
      after.Attached tree.size
      → after.parent? tree.size = some outer ∧ tree.level outer + 2 ≤ tree.level anonymous.id := by
  intro after attached
  obtain ⟨innerUp, _⟩ := coherent.parent?_of_moved text created moved hangable
  have root : after.root = tree.root :=
    (coherent.pruned_of_moved text created moved hangable shown around).root
  by_cases isOuter : outer = creation
  · refine absurd attached (not_attached_of_top (innerUp.trans (if_pos isOuter)) ?_)
    rw [root]
    exact Nat.ne_of_gt (contains_iff.mp coherent.rootPresent)
  · have outerAbove := Fix.enclosingClass?_above coherent.toLinked around
    have higher := ((above_iff_of_parent created).mp outerAbove).resolve_left isOuter
    refine ⟨innerUp.trans (if_neg isOuter), ?_⟩
    rw [coherent.level_of_parent created]
    exact Nat.succ_le_succ (coherent.level_lt_of_above higher)

/-- Making a named class from an anonymous one makes a tree no lower: the members come to the class
around, which is further up.
-/
theorem Coherent.named_noLower
    : tree.NoLower
        ((filled.hang outer (filled.childIds outer).length tree.size).fragment creation text) := by
  let after := (filled.hang outer (filled.childIds outer).length tree.size).fragment creation text
  have afterCoherent : after.Coherent := (moved.coherent.hang hangable _).fragment creation text
  have pruned : tree.Pruned (tree.LostWith anonymous.id creation) after :=
    coherent.pruned_of_moved text created moved hangable shown around
  have root : after.root = tree.root := pruned.root
  obtain ⟨_, oldUp⟩ := coherent.parent?_of_moved text created moved hangable
  refine pruned.noLower coherent afterCoherent (fun id old => ?_) (fun id content before => ?_)
  · have up := oldUp id old
    by_cases member : id ∈ Fix.movedMembers anonymous
    · rw [if_pos member] at up
      by_cases attached : after.Attached id
      · have upper := afterCoherent.attached_upward attached (.single up)
        obtain ⟨inOuter, nearer⟩ :=
          coherent.outer_of_attached text shown created around moved hangable upper
        have now : after.level id = after.level outer + 2 := by
          rw [afterCoherent.level_of_parent up, afterCoherent.level_of_parent inOuter]
        have outerOld :=
          (coherent.above_lt (Fix.enclosingClass?_above coherent.toLinked around)).1
        have moves := (coherent.mem_movedMembers_iff shown).mp member
        refine .inr (.inr ⟨outer, outerOld, .tail (.single inOuter) up, ?_⟩)
        rw [now, coherent.level_of_parent moves.1]
        omega
      · exact .inr (.inl attached)
    · rw [if_neg member] at up
      by_cases part : tree.parent? id = some creation
      · rw [if_pos part] at up
        exact .inr (.inl (not_attached_of_top up (root ▸ coherent.ne_root part)))
      · exact .inl (up.trans (if_neg part))
  · rw [fragment_content?, hang_content?, moved.contents,
      grow_content?_of_lt (lt_size_of_content? before), before]
    split
    · exact ⟨_, rfl, content.asText_nesting_le text⟩
    · exact ⟨content, rfl, Nat.le_refl _⟩

/-- A new class stands no deeper than the anonymous class that it is made from, and neither does its
base.
-/
theorem Coherent.named_noDeeper (isAnonymous : anonymous.kind = .anonymousClass)
    : tree.NoDeeper fix anchor
        ((filled.hang outer (filled.childIds outer).length tree.size).fragment creation text) := by
  let after := (filled.hang outer (filled.childIds outer).length tree.size).fragment creation text
  have noLower : tree.NoLower after :=
    coherent.named_noLower text shown created around moved hangable
  have isKind : tree.kind? anonymous.id = some .anonymousClass :=
    (kind?_of_shown shown).trans (congrArg some isAnonymous)
  have outerAbove := Fix.enclosingClass?_above coherent.toLinked around
  have contents {id : NodeId} (other : id ≠ creation)
      : after.content? id = (tree.grow (Fix.innerClassOutline name base)).content? id := by
    rw [fragment_content?, if_neg other, hang_content?, moved.contents]
  -- The class comes to a place above the anonymous one, and its base to one level below that.
  have classLevel (attached : after.Attached tree.size)
      : tree.Attached anonymous.id ∧ after.level tree.size + 1 ≤ tree.level anonymous.id := by
    obtain ⟨inOuter, nearer⟩ :=
      coherent.outer_of_attached text shown created around moved hangable attached
    obtain ⟨outerAttached, level⟩ :=
      noLower.level_of_parent inOuter (coherent.above_lt outerAbove).1 attached
    exact ⟨outerAttached.trans outerAbove.to_reflTransGen, by omega⟩
  have baseUp : after.parent? (tree.size + 1) = some tree.size :=
    coherent.parent?_of_base text shown created moved hangable
  have noType (field : NodeId) : ¬tree.TypeOf field anonymous.id :=
    TypeOf.not_of_kind isKind (by decide)
  have stands {i : Nat} (bound : i < 2) (attached : after.Attached (tree.size + i))
      : tree.StandsBy after (tree.size + i) := by
    rcases Nat.lt_succ_iff_lt_or_eq.mp bound with first | rfl
    · obtain rfl := Nat.lt_one_iff.mp first
      obtain ⟨before, level⟩ := classLevel attached
      exact ⟨anonymous.id, before, noType, Nat.le_of_succ_le level⟩
    · obtain ⟨before, level⟩ :=
        classLevel (noLower.coherent.attached_upward attached (.single baseUp))
      refine ⟨anonymous.id, before, noType, ?_⟩
      rwa [noLower.coherent.level_of_parent baseUp]
  change tree.NoDeeper fix anchor after
  refine ⟨noLower, ?_, ?_⟩
  · intro id content new attached known
    obtain ⟨i, rfl⟩ := Nat.exists_eq_add_of_le new
    rw [contents (Nat.ne_of_gt (Nat.lt_of_lt_of_le (coherent.parent_lt created) new)),
      grow_content?_add] at known
    exact ⟨innerClassOutline_nesting (List.mem_of_getElem? known),
      .inl (stands (List.getElem?_eq_some_iff.mp known).1 attached)⟩
  · intro field id typeOf _ childless now
    have old := lt_size_of_parent? typeOf.below
    obtain ⟨_, oldUp⟩ := coherent.parent?_of_moved text created moved hangable
    have notCreation : id ≠ creation := by
      rintro rfl
      exact childless anonymous.id created
    have stays : id ∉ Fix.movedMembers anonymous := by
      intro member
      have moves := (coherent.mem_movedMembers_iff shown).mp member
      cases moves.1.symm.trans typeOf.below
      exact NodeKind.noConfusion (Option.some.inj (isKind.symm.trans typeOf.isField))
    have up := (oldUp id old).trans (if_neg stays)
    have apart : tree.parent? id ≠ some creation := by
      intro part
      rw [if_pos part] at up
      have root : after.root = tree.root :=
        (coherent.pruned_of_moved text created moved hangable shown around).root
      exact not_attached_of_top up (root ▸ coherent.ne_root part) now
    have fieldApart : field ≠ creation := by
      rintro rfl
      exact apart typeOf.below
    refine typeOf.still ?_ (up.trans (if_neg apart)) ?_
    · rw [contents notCreation, grow_content?_of_lt old]
    · rw [kind?, contents fieldApart, grow_content?_of_lt (lt_size_of_kind? typeOf.isField), kind?]

end Named

end Tree

namespace Fix

open TreeLint.Tree

variable {tree after : Tree} {anchor : NodeId}

-----------------------------------------------------------------------------------------
-- Each fix
-----------------------------------------------------------------------------------------

/-- Variables that move one after the other make a tree no deeper in any step, by induction on the
list.
-/
theorem declareApart_noDeeper {fix : Fix} (coherent : tree.Coherent) {statement block : NodeId}
    {ids : List NodeId} {index : Nat} (each : ∀ id ∈ ids, tree.DeclaredIn statement id block)
    (distinct : ids.Nodup) (succeeded : (declareApart block index ids).apply tree = (.ok (), after))
    : ReflTransGen (·.NoDeeper fix anchor ·) tree after := by
  induction ids generalizing tree index with
  | nil =>
      obtain rfl : tree = after := congrArg Prod.snd succeeded
      exact .refl
  | cons id rest ih =>
      have declaredIn := each id List.mem_cons_self
      obtain ⟨fresh, restDistinct⟩ := List.nodup_cons.mp distinct
      obtain ⟨middleCoherent, more⟩ := declareApart_step coherent declaredIn succeeded
      have others : ∀ other ∈ rest,
          (tree.withDeclared statement id block index).DeclaredIn statement other block :=
        fun other member => declaredIn.rest (each other (List.mem_cons_of_mem id member))
          fun same => fresh (same ▸ member)
      exact .head (declaredIn.noDeeper coherent middleCoherent)
        (ih middleCoherent others restDistinct more)

theorem splitDeclaration_noDeeper (coherent : tree.Coherent)
    (succeeded : (splitDeclaration.applyAt anchor).apply tree = (.ok (), after))
    : ReflTransGen (·.NoDeeper .splitDeclaration anchor ·) tree after := by
  obtain ⟨node, shown, ⟨_, splits⟩ | ⟨isField, writes⟩⟩ := splitDeclaration_cases succeeded
  · obtain ⟨_, _, _, _, _, each, distinct, moves⟩ := splitStatement_moves coherent splits
    exact declareApart_noDeeper coherent each distinct moves
  · obtain rfl := subtree?_id shown
    obtain ⟨typeName, rfl⟩ | ⟨rfl, _⟩ := writeFieldType_cases coherent writes
    · have afterCoherent := (writeFieldType_succeeded coherent shown isField writes).1.coherent
      exact .single (coherent.withType_noDeeper
        ((kind?_of_shown shown).trans (congrArg some isField)) afterCoherent)
    · exact .refl

theorem introduceVariable_noDeeper (coherent : tree.Coherent)
    (succeeded : (introduceVariable.applyAt anchor).apply tree = (.ok (), after))
    : tree.NoDeeper .introduceVariable anchor after := by
  have afterCoherent := coherent_of_applyAt coherent succeeded
  obtain ⟨_, statement, block, _, isStatement, inBlock, introduces, rfl⟩ :=
    introduceVariable_moves coherent succeeded
  refine introduces.noDeeper coherent ?_ afterCoherent
  have above := coherent.mem_ancestors.mp (List.mem_of_find?_eq_some isStatement)
  have higher := coherent.level_lt_of_above above
  rwa [coherent.level_of_parent inBlock] at higher

/-- A fix that is applied makes a tree no deeper, in each of its steps. -/
theorem applyAt_noDeeper {fix : Fix} (coherent : tree.Coherent)
    (succeeded : (fix.applyAt anchor).apply tree = (.ok (), after))
    : ReflTransGen (·.NoDeeper fix anchor ·) tree after := by
  cases fix with
  | removeModifier modifier =>
      obtain rfl := removeModifier_succeeded succeeded
      refine .single (coherent.reword_noDeeper anchor (fun content => ?_) fun _ => rfl)
      refine Content.nesting_le_of (fun some none => some ?_) rfl (.inl rfl)
      exact (congrArg _ none).trans List.filter_nil
  | nameInnerClass =>
      obtain ⟨anonymous, creation, outer, _, _, text, filled, _, shown, isAnonymous, created, around,
        _, moved, hangable, rfl⟩ := nameInnerClass_moves coherent succeeded
      exact .single
        (coherent.named_noDeeper text shown created around moved hangable isAnonymous)
  | splitDeclaration => exact splitDeclaration_noDeeper coherent succeeded
  | introduceVariable => exact .single (introduceVariable_noDeeper coherent succeeded)
  | simplify =>
      obtain ⟨_, text, _, _, rfl⟩ := replaceAt_succeeded succeeded
      exact .single (coherent.fragment_noDeeper anchor text)
  | removeObjectBound =>
      have afterCoherent := coherent_of_applyAt coherent succeeded
      obtain ⟨_, _, rfl, siblings⟩ := removeObjectBound_succeeded coherent.toLinked succeeded
      exact .single (coherent.cutAll_noDeeper siblings.below afterCoherent)
  | flipEquals =>
      obtain ⟨_, text, _, _, rfl⟩ := replaceAt_succeeded succeeded
      exact .single (coherent.fragment_noDeeper anchor text)
  | rename name =>
      obtain ⟨_, rfl⟩ := Edit.reword_succeeded succeeded
      refine .single (coherent.reword_noDeeper anchor (fun content => ?_) fun _ => rfl)
      exact Content.nesting_le_of (fun some => some) rfl (.inl rfl)

end Fix

end TreeLint
