import TreeLint.Proofs.Fix.CutOffs
import TreeLint.Proofs.Tree.Texts

/-! What fixes do to the texts that the host gives. No fix rewrites such a text but that of a node
which it replaces, so a text around the place of a fix may be left behind. Main result: after a fix
every node still shows what its children tell, but for the lowest one with a text of the host that
the fix shows in; the tree stays consistent exactly if that one still tells the truth.
-/

namespace TreeLint

open Relation

namespace Tree

variable {tree : Tree}

-----------------------------------------------------------------------------------------
-- Words and text
-----------------------------------------------------------------------------------------

/-- A node whose content changes in nothing but its other words tells the same, and so does any other
node.
-/
theorem reword_retells {f : Content → Content} {anchor id : NodeId}
    (roles : ∀ content, (f content).role = content.role)
    (words : id = anchor → ∀ content : Content, content.SameWords (f content))
    : tree.Retells (tree.reword anchor f) id := by
  refine .of_children (fun content before => ?_) (reword_childIds tree anchor f id)
    fun child _ => ?_
  · rw [reword_content?, before]
    split
    · next here => exact ⟨f content, rfl, words here content⟩
    · exact ⟨content, rfl, rfl, rfl, rfl, rfl⟩
  · rw [reword_content?]
    split
    · cases tree.content? child <;> simp [roles]
    · rfl

/-- Taking a modifier away changes no text. -/
theorem removeModifier_retold (tree : Tree) (anchor : NodeId) (modifier : Modifier)
    : tree.Retold
        (tree.reword anchor fun content =>
          { content with modifiers := content.modifiers.filter (· != modifier) }) where
  grows := Nat.le_of_eq (reword_size ..).symm
  nodes id _ := reword_retells (fun _ => rfl) fun _ _ => ⟨rfl, rfl, rfl, rfl⟩
  fresh id content new known :=
    absurd (lt_size_of_content? known) (by rw [reword_size]; exact Nat.not_lt_of_le new)

/-- A new name shows from its node on. -/
theorem rename_rewordedFrom (tree : Tree) (anchor : NodeId) (name : String)
    : tree.RewordedFrom (some anchor) none
        (tree.reword anchor fun content => { content with name := some name }) where
  nodes id _ := by
    by_cases here : id = anchor
    · refine .inr (.inl ⟨congrArg some here.symm, ?_⟩)
      rw [text?, text?, reword_content?, if_pos here]
      cases tree.content? id <;> rfl
    · exact .inl (reword_retells (fun _ => rfl) fun same => absurd same here)
  isText _ isReplaced := nomatch isReplaced
  fresh id content new known :=
    absurd (lt_size_of_content? known) (by rw [reword_size]; exact Nat.not_lt_of_le new)

/-- A node other than the one that text replaces tells the same. -/
theorem fragment_retells {anchor id : NodeId} {text : String} (other : id ≠ anchor)
    : tree.Retells (tree.fragment anchor text) id := by
  refine .of_children (fun content before => ?_) ?_ fun child _ => ?_
  · rw [fragment_content?, if_neg other]
    exact ⟨content, before, rfl, rfl, rfl, rfl⟩
  · rw [fragment_childIds, if_neg other]
  · rw [fragment_content?]
    split
    · cases tree.content? child <;> rfl
    · rfl

/-- Text in the place of a node shows from its parent on. -/
theorem Retold.fragment {middle : Tree} {anchor : NodeId} {text : String}
    (retold : tree.Retold middle) (present : anchor < tree.size)
    : tree.RewordedFrom (tree.parent? anchor) (some anchor) (middle.fragment anchor text) where
  nodes id old := by
    by_cases here : id = anchor
    · exact .inr (.inr ⟨congrArg some here.symm, by rw [here]⟩)
    · exact .inl ((retold.nodes id old).trans (fragment_retells here) old)
  isText id isReplaced := by
    obtain rfl := Option.some.inj isReplaced
    obtain ⟨content, known⟩ := content?_exists (Nat.lt_of_lt_of_le present retold.grows)
    rw [kind?, fragment_content?, if_pos rfl, known]
    rfl
  fresh id content new known := by
    rw [fragment_content?] at known
    split at known
    · obtain ⟨before, _, rfl⟩ := Option.map_eq_some_iff.mp known
      exact .inr rfl
    · exact retold.fresh id content new known

-----------------------------------------------------------------------------------------
-- Bounds and declarations
-----------------------------------------------------------------------------------------

/-- Children cut off a node show from that node on. -/
theorem cutAll_rewordedFrom (tree : Tree) (parent : NodeId) (ids : List NodeId)
    : tree.RewordedFrom (some parent) none (tree.cutAll parent ids) where
  nodes id _ := by
    by_cases here : id = parent
    · refine .inr (.inl ⟨congrArg some here.symm, ?_⟩)
      rw [text?, text?, cutAll_content?]
    · refine .inl (.of_children (fun content before => ⟨content, ?_, rfl, rfl, rfl, rfl⟩) ?_ ?_)
      · rwa [cutAll_content?]
      · rw [cutAll_childIds, if_neg here]
      · exact fun child _ => by rw [cutAll_content?]
  isText _ isReplaced := nomatch isReplaced
  fresh id content new known :=
    absurd (lt_size_of_content? known) (by rw [cutAll_size]; exact Nat.not_lt_of_le new)

/-- A declaration of its own for a variable changes no text. -/
theorem DeclaredIn.retold {statement declared block : NodeId} {index : Nat}
    (declaredIn : tree.DeclaredIn statement declared block) (linked : tree.Linked)
    (behind : 0 < index)
    : tree.Retold (tree.withDeclared statement declared block index) where
  grows := declaredIn.frame.grows
  nodes id old := by
    have children : (tree.withDeclared statement declared block index).childIds id = _ :=
      declaredIn.childIds linked old
    have words (content : Content) (before : tree.content? id = some content)
        : ∃ now, (tree.withDeclared statement declared block index).content? id = some now
          ∧ content.SameWords now :=
      ⟨content, (content?_of_lt old).trans before, rfl, rfl, rfl, rfl⟩
    have roles : ∀ child ∈ tree.childIds id,
        ((tree.withDeclared statement declared block index).content? child).map (·.role)
          = (tree.content? child).map (·.role) :=
      fun child member => by rw [content?_of_lt (linked.child_lt member)]
    by_cases isStatement : id = statement
    · refine .of_content (content?_of_lt old) fun kind isKind => ?_
      rw [isStatement, declaredIn.isDeclaration] at isKind
      cases isKind
      rfl
    · rw [if_neg isStatement] at children
      by_cases isBlock : id = block
      · rw [if_pos isBlock] at children
        refine .of_insert words children (Nat.min_le_right _ _) ?_ roles ?_
        · have member := linked.agree.mpr declaredIn.inBlock
          exact Nat.lt_min.mpr ⟨behind, List.length_pos_of_mem (isBlock ▸ member)⟩
        · rw [content?_new]
          rfl
      · rw [if_neg isBlock] at children
        exact .of_children words children roles
  fresh id content new known := by
    obtain rfl := eq_size_of_new size new (lt_size_of_content? known)
    rw [content?_new] at known
    cases known
    exact .inl rfl

/-- A written type for a field changes no text. -/
theorem withType_retold {field : NodeId} {typeName : String} (linked : tree.Linked)
    (isField : tree.kind? field = some .field)
    : tree.Retold (tree.withType field typeName) where
  grows := withType_frame.grows
  nodes id old := by
    by_cases here : id = field
    · refine .of_content (withType_content?_of_lt old) fun kind isKind => ?_
      rw [here, isField] at isKind
      cases isKind
      rfl
    · refine .of_children (fun content before => ⟨content, ?_, rfl, rfl, rfl, rfl⟩) ?_ ?_
      · rwa [withType_content?_of_lt old]
      · rw [withType_childIds (lt_size_of_kind? isField) old, if_neg here]
      · exact fun child member => by rw [withType_content?_of_lt (linked.child_lt member)]
  fresh id content new known := by
    obtain rfl := eq_size_of_new withType_size new (lt_size_of_content? known)
    rw [withType_content?_new] at known
    cases known
    exact .inr rfl

-----------------------------------------------------------------------------------------
-- Variables and classes
-----------------------------------------------------------------------------------------

/-- A variable for the receiver of a call shows from the call on. -/
theorem Introduces.rewordedFrom {call receiver block : NodeId} {index : Nat}
    {name typeName : String} (introduces : tree.Introduces call receiver block)
    (linked : tree.Linked)
    : tree.RewordedFrom (some call) none
        (tree.withVariable call receiver block index name typeName) where
  nodes id old := by
    have content? : (tree.withVariable call receiver block index name typeName).content? id = _ :=
      introduces.content? linked old
    have children : (tree.withVariable call receiver block index name typeName).childIds id = _ :=
      introduces.childIds linked old
    have words (content : Content) (before : tree.content? id = some content)
        : ∃ now, (tree.withVariable call receiver block index name typeName).content? id = some now
          ∧ content.SameWords now := by
      rw [content?, before]
      split
      · exact ⟨_, rfl, rfl, rfl, rfl, rfl⟩
      · exact ⟨content, rfl, rfl, rfl, rfl, rfl⟩
    by_cases isCall : id = call
    · refine .inr (.inl ⟨congrArg some isCall.symm, ?_⟩)
      obtain ⟨content, before⟩ := content?_exists old
      obtain ⟨now, known, same⟩ := words content before
      rw [text?, text?, before, known, Option.bind_some, Option.bind_some, same.text]
    · rw [if_neg isCall] at children
      by_cases isBlock : id = block
      · have other : id ≠ receiver := isBlock ▸ (introduces.distinct linked).2.1.symm
        rw [if_neg other] at content?
        refine .inl (.of_content content? fun kind isKind => ?_)
        rw [isBlock, introduces.isBlock] at isKind
        cases isKind
        rfl
      · rw [if_neg isBlock] at children
        refine .inl (.of_children words children fun child member => ?_)
        rw [introduces.content? linked (linked.child_lt member), if_neg]
        -- The receiver hangs below the call, and this node is not the call.
        rintro rfl
        exact isCall (Option.some.inj ((linked.agree.mp member).symm.trans (introduces.below linked)))
  isText _ isReplaced := nomatch isReplaced
  fresh id content new known := by
    rcases introduces.content?_new linked new known with ⟨_, rfl⟩ | ⟨_, rfl⟩ | ⟨_, rfl⟩
    · exact .inl rfl
    · exact .inl rfl
    · exact .inl rfl

/-- Members moved to a new class that hangs in the class around change no text. -/
theorem MovedInto.retold {filled : Tree} {anonymous outer : NodeId} {members : List NodeId}
    {name base : String} (linked : tree.Linked)
    (moved : (tree.grow (Fix.innerClassOutline name base)).MovedInto anonymous tree.size members
      filled)
    (hangable : filled.Hangable outer tree.size)
    (isAnonymous : tree.kind? anonymous = some .anonymousClass)
    (isClass : tree.isClassAt outer = true)
    : tree.Retold (filled.hang outer (filled.childIds outer).length tree.size) where
  grows := by
    rw [hang_size, moved.size]
    exact Nat.le_of_lt (tree.size_lt_grow _)
  nodes id old := by
    have contents {id : NodeId} (old : id < tree.size)
        : (filled.hang outer (filled.childIds outer).length tree.size).content? id
          = tree.content? id := by
      rw [hang_content?, moved.contents, grow_content?_of_lt old]
    by_cases isLoose : id = anonymous
    · refine .of_content (contents old) fun kind isKind => ?_
      rw [isLoose, isAnonymous] at isKind
      cases isKind
      rfl
    · by_cases isOuter : id = outer
      · refine .of_content (contents old) fun kind isKind => ?_
        rw [isClassAt, ← isOuter, isKind] at isClass
        revert isClass
        cases kind <;> decide
      · refine .of_children (fun content before => ⟨content, ?_, rfl, rfl, rfl, rfl⟩) ?_ ?_
        · rwa [contents old]
        · rw [hang_childIds hangable.parentPresent, if_neg isOuter,
            moved.children id isLoose (Nat.ne_of_lt old), grow_childIds_of_lt old]
        · exact fun child member => by rw [contents (linked.child_lt member)]
  fresh id content new known := by
    rw [hang_content?, moved.contents] at known
    obtain ⟨i, rfl⟩ := Nat.exists_eq_add_of_le new
    rw [grow_content?_add] at known
    refine .inr ?_
    have plain : ∀ kind ∈ [NodeKind.namedClass, .reference], kind.quotes = false := by decide
    exact plain _ (Fix.innerClassOutline_contents known).1

end Tree

namespace Fix

open TreeLint.Tree

variable {tree after : Tree} {anchor : NodeId}

-----------------------------------------------------------------------------------------
-- Where fixes show
-----------------------------------------------------------------------------------------

/-- The node that the fix replaces by text: the anchor of a fix that writes an expression anew, and
what creates the anonymous class that gets a name. The other fixes replace none.
-/
def replaced? (fix : Fix) (tree : Tree) (anchor : NodeId) : Option NodeId :=
  match fix with
  | .removeModifier _ | .splitDeclaration | .introduceVariable | .removeObjectBound | .rename _ =>
      none
  | .simplify | .flipEquals => some anchor
  | .nameInnerClass => (tree.parent? anchor).bind tree.parent?

/-- The lowest node whose children may tell another text once the fix is applied at the anchor: the
anchor, if the fix changes its name or its children, or the parent of what the fix replaces by text.
-/
def rewordedFrom? (fix : Fix) (tree : Tree) (anchor : NodeId) : Option NodeId :=
  match fix with
  | .removeModifier _ | .splitDeclaration => none
  | .introduceVariable | .removeObjectBound | .rename _ => some anchor
  | .simplify | .flipEquals => tree.parent? anchor
  | .nameInnerClass => ((tree.parent? anchor).bind tree.parent?).bind tree.parent?

/-- The one node whose text of the host the fix may leave behind: the lowest one with such a text that
the fix shows in.
-/
def outdated? (fix : Fix) (tree : Tree) (anchor : NodeId) : Option NodeId :=
  (fix.rewordedFrom? tree anchor).bind tree.textedFrom?

/-- Variables moved to declarations of their own change no text, by induction on the list. -/
theorem declareApart_retold (coherent : tree.Coherent) {statement block : NodeId}
    {ids : List NodeId} {index : Nat} (each : ∀ id ∈ ids, tree.DeclaredIn statement id block)
    (distinct : ids.Nodup) (behind : 0 < index)
    (succeeded : (declareApart block index ids).apply tree = (.ok (), after))
    : tree.Retold after := by
  induction ids generalizing tree index with
  | nil =>
      obtain rfl : tree = after := congrArg Prod.snd succeeded
      exact .refl tree
  | cons declared rest ih =>
      have declaredIn := each declared List.mem_cons_self
      obtain ⟨fresh, restDistinct⟩ := List.nodup_cons.mp distinct
      obtain ⟨middleCoherent, more⟩ := declareApart_step coherent declaredIn succeeded
      refine (declaredIn.retold coherent.toLinked behind).trans ?_
      refine ih middleCoherent (fun other member => ?_) restDistinct (Nat.succ_pos index) more
      exact declaredIn.rest (each other (List.mem_cons_of_mem declared member))
        fun same => fresh (same ▸ member)

/-- Giving variables declarations of their own changes no text. -/
theorem splitDeclaration_retold (coherent : tree.Coherent)
    (succeeded : (splitDeclaration.applyAt anchor).apply tree = (.ok (), after))
    : tree.Retold after := by
  obtain ⟨node, shown, ⟨_, splits⟩ | ⟨isField, writes⟩⟩ := splitDeclaration_cases succeeded
  · obtain ⟨_, _, _, _, _, each, distinct, moves⟩ := splitStatement_moves coherent splits
    exact declareApart_retold coherent each distinct (Nat.succ_pos _) moves
  · obtain rfl := subtree?_id shown
    have isKind := (kind?_of_shown shown).trans (congrArg some isField)
    rw [writeFieldType] at writes
    split at writes
    · obtain ⟨typeName, _, more⟩ := Edit.require_succeeded writes
      obtain ⟨rfl, _⟩ := Edit.hangNew_succeeded coherent more
      exact withType_retold coherent.toLinked isKind
    · obtain rfl : tree = after := congrArg Prod.snd writes
      exact .refl tree

/-- A name for an anonymous class shows from the parent of its creation on. -/
theorem nameInnerClass_rewordedFrom (coherent : tree.Coherent)
    (succeeded : (nameInnerClass.applyAt anchor).apply tree = (.ok (), after))
    : tree.RewordedFrom (nameInnerClass.rewordedFrom? tree anchor)
        (nameInnerClass.replaced? tree anchor) after := by
  obtain ⟨anonymous, creation, outer, _, _, text, filled, up, shown, isAnonymous, created, around,
    _, moved, hangable, rfl⟩ := nameInnerClass_moves coherent succeeded
  have isKind := (kind?_of_shown shown).trans (congrArg some isAnonymous)
  rw [enclosingClass?_eq] at around
  have retold := moved.retold coherent.toLinked hangable isKind (List.find?_some around)
  rw [rewordedFrom?, replaced?, up, Option.bind_some, created, Option.bind_some]
  exact retold.fragment (coherent.parent_lt created)

/-- An expression that is written anew shows from its parent on. -/
theorem replaceAt_rewordedFrom {fault : ShapeFault} {text? : Subtree → Option String}
    (succeeded : (replaceAt anchor fault text?).apply tree = (.ok (), after))
    : tree.RewordedFrom (tree.parent? anchor) (some anchor) after := by
  obtain ⟨_, _, shown, _, rfl⟩ := replaceAt_succeeded succeeded
  obtain rfl := subtree?_id shown
  exact (Retold.refl tree).fragment (lt_size_of_content? (content?_of_shown shown))

/-- A fix that is applied shows where it is said to show, and replaces what it is said to replace. -/
theorem applyAt_rewordedFrom {fix : Fix} (coherent : tree.Coherent)
    (succeeded : (fix.applyAt anchor).apply tree = (.ok (), after))
    : tree.RewordedFrom (fix.rewordedFrom? tree anchor) (fix.replaced? tree anchor) after := by
  cases fix with
  | removeModifier modifier =>
      obtain rfl := removeModifier_succeeded succeeded
      exact (removeModifier_retold tree anchor modifier).rewordedFrom _
  | nameInnerClass => exact nameInnerClass_rewordedFrom coherent succeeded
  | splitDeclaration => exact (splitDeclaration_retold coherent succeeded).rewordedFrom _
  | introduceVariable =>
      obtain ⟨_, _, _, _, _, introduces, rfl⟩ := introduceVariable_succeeded coherent succeeded
      exact introduces.rewordedFrom coherent.toLinked
  | simplify => exact replaceAt_rewordedFrom succeeded
  | removeObjectBound =>
      obtain ⟨parameter, _, rfl, _⟩ := removeObjectBound_succeeded coherent.toLinked succeeded
      exact cutAll_rewordedFrom tree anchor _
  | flipEquals => exact replaceAt_rewordedFrom succeeded
  | rename name =>
      obtain ⟨_, rfl⟩ := Edit.reword_succeeded succeeded
      exact rename_rewordedFrom tree anchor name

-----------------------------------------------------------------------------------------
-- What stays attached
-----------------------------------------------------------------------------------------

/-- A fix shows from the anchor on, or from a node above it, and cuts off nothing from there
upward.
-/
theorem kept_of_rewordedFrom? {fix : Fix} (coherent : tree.Coherent) {start upper : NodeId}
    (isStart : fix.rewordedFrom? tree anchor = some start)
    (way : ReflTransGen tree.IsParent upper start)
    : ReflTransGen tree.IsParent upper anchor ∧ ¬fix.CutsOff tree anchor upper := by
  have loops {low : NodeId} (below : tree.Above low upper)
      (up : ReflTransGen tree.IsParent upper low) : False :=
    coherent.acyclic upper (TransGen.trans_right up below)
  cases fix with
  | removeModifier _ => cases isStart
  | splitDeclaration => cases isStart
  | introduceVariable =>
      cases isStart
      exact ⟨way, not_false⟩
  | rename _ =>
      cases isStart
      exact ⟨way, not_false⟩
  | removeObjectBound =>
      cases isStart
      refine ⟨way, fun ⟨bound, ⟨link, _⟩, below⟩ => ?_⟩
      exact loops (TransGen.head' link below) way
  | simplify =>
      have reach := way.tail isStart
      exact ⟨reach, fun below => loops below reach⟩
  | flipEquals =>
      have reach := way.tail isStart
      exact ⟨reach, fun below => loops below reach⟩
  | nameInnerClass =>
      obtain ⟨creation, found, link⟩ := Option.bind_eq_some_iff.mp isStart
      obtain ⟨anonymous, up, created⟩ := Option.bind_eq_some_iff.mp found
      have reach := way.tail link
      refine ⟨(reach.tail created).tail up, ?_⟩
      rintro ⟨other, source, isUp, isSource, below, _⟩
      cases up.symm.trans isUp
      cases created.symm.trans isSource
      exact loops below reach

/-- The node whose text a fix may leave behind is attached afterwards. -/
theorem attached_of_outdated? {fix : Fix} (coherent : tree.Coherent)
    (attached : tree.Attached anchor)
    (succeeded : (fix.applyAt anchor).apply tree = (.ok (), after)) {id : NodeId}
    (isOutdated : fix.outdated? tree anchor = some id)
    : after.Attached id := by
  obtain ⟨start, isStart, lowest⟩ := Option.bind_eq_some_iff.mp isOutdated
  obtain ⟨reach, kept⟩ :=
    kept_of_rewordedFrom? coherent isStart (coherent.reach_of_textedFrom? lowest)
  exact (applyAt_pruned coherent succeeded).attached_after coherent
    (coherent.attached_upward attached reach) kept

/-- A fix changes no text of the host but that of the node which it replaces by text. After it, all
attached nodes show what their children tell, if they did before, but for the one whose text it may
leave behind; so the tree stays consistent exactly if that one still tells the truth.
-/
theorem applyAt_textConsistent_iff {fix : Fix} (coherent : tree.Coherent)
    (attached : tree.Attached anchor) (consistent : tree.TextConsistent)
    (succeeded : (fix.applyAt anchor).apply tree = (.ok (), after))
    : (∀ id < tree.size, fix.replaced? tree anchor ≠ some id → after.text? id = tree.text? id)
      ∧ (∀ id ∈ fix.replaced? tree anchor, after.kind? id = some .fragment)
      ∧ (∀ id ∈ after.preorder, fix.outdated? tree anchor ≠ some id → after.TellsText id)
      ∧ (after.TextConsistent ↔ ∀ id ∈ fix.outdated? tree anchor, after.TellsText id) := by
  have reworded := applyAt_rewordedFrom coherent succeeded
  have afterCoherent := coherent_of_applyAt coherent succeeded
  have others : ∀ id ∈ after.preorder, fix.outdated? tree anchor ≠ some id
      → after.TellsText id := by
    intro id inside spared
    refine reworded.tellsText coherent.toLinked afterCoherent.toLinked (fun old => ?_) spared
    have before := (applyAt_pruned coherent succeeded).attached_before coherent afterCoherent old
      (afterCoherent.attached_iff.mpr inside)
    exact consistent id (coherent.attached_iff.mp before.1)
  refine ⟨fun id old => reworded.text?_eq old, reworded.isText, others,
    fun consistentThen id isOutdated => ?_, fun stays id inside => ?_⟩
  · refine consistentThen id (afterCoherent.attached_iff.mp ?_)
    exact attached_of_outdated? coherent attached succeeded isOutdated
  · by_cases isOutdated : fix.outdated? tree anchor = some id
    · exact stays id isOutdated
    · exact others id inside isOutdated

/-- A file with a mask in parentheses that the host gives a text for. -/
def parenthesizedMask : Document where
  root :=
    let mask := (Outline.binary .and ((Outline.referenceExpression "x").withType "int")
      (((Outline.literal "-1").withType "int").withConstant (-1))).withType "int"
    let parentheses := ((((Outline.ofKind .parenthesizedExpression).withChild mask).withType
      "int").withText "(x & -1)")
    Outline.file.withChild <| (Outline.namedClass "A").withChild <|
      (Outline.method "m").withChild <| Outline.codeBlock.withChild <|
        Outline.returnStatement.withChild <|
          (Outline.binary .or parentheses
            (((Outline.literal "0").withType "int").withConstant 0)).withType "int"

/-- The mask is replaced by its operand. -/
theorem parenthesizedMask_simplified
    : let tree := Tree.ofDocument parenthesizedMask
      (simplify.applyAt 7).apply tree = (.ok (), tree.fragment 7 "x") :=
  replaceAt_ok rfl (by decide +kernel)

/-- Simplifying the mask leaves the text of the parentheses behind: it still shows the mask, while the
node in them is `x` alone. The fix for the expression around them then writes the mask again.
-/
theorem parenthesizedMask_leftBehind
    : let tree := Tree.ofDocument parenthesizedMask
      tree.Attached 7
      ∧ tree.TextConsistent
      ∧ ∃ after,
          (simplify.applyAt 7).apply tree = (.ok (), after)
          ∧ ¬after.TextConsistent
          ∧ (after.subtree? 6).map Subtree.rebuilt = some "(x)"
          ∧ ∃ last,
              (simplify.applyAt 5).apply after = (.ok (), last)
              ∧ last.text? 5 = some "(x & -1)" := by
  intro tree
  have coherent : tree.Coherent := Tree.ofDocument_coherent parenthesizedMask
  have again : (simplify.applyAt 5).apply (tree.fragment 7 "x")
      = (.ok (), (tree.fragment 7 "x").fragment 5 "(x & -1)") :=
    replaceAt_ok rfl (by decide +kernel)
  exact ⟨coherent.attached_iff.mpr (by decide +kernel), by decide +kernel, _,
    parenthesizedMask_simplified, by decide +kernel, by decide +kernel, _, again, by decide +kernel⟩

/-- Witness: text takes the place of the mask, and the parentheses are the one node that the fix may
leave behind.
-/
theorem parenthesizedMask_textConsistent_iff
    : let tree := Tree.ofDocument parenthesizedMask
      tree.Coherent
      ∧ tree.Attached 7
      ∧ tree.TextConsistent
      ∧ simplify.replaced? tree 7 = some 7
      ∧ simplify.outdated? tree 7 = some 6
      ∧ ∃ after,
          (simplify.applyAt 7).apply tree = (.ok (), after)
          ∧ (∀ id < tree.size,
              simplify.replaced? tree 7 ≠ some id → after.text? id = tree.text? id)
          ∧ (∀ id ∈ simplify.replaced? tree 7, after.kind? id = some .fragment)
          ∧ (∀ id ∈ after.preorder, simplify.outdated? tree 7 ≠ some id → after.TellsText id)
          ∧ (after.TextConsistent ↔ ∀ id ∈ simplify.outdated? tree 7, after.TellsText id) := by
  intro tree
  have coherent : tree.Coherent := Tree.ofDocument_coherent parenthesizedMask
  have attached : tree.Attached 7 := coherent.attached_iff.mpr (by decide +kernel)
  have consistent : tree.TextConsistent := by decide +kernel
  have simplified := parenthesizedMask_simplified
  exact ⟨coherent, attached, consistent, rfl, by decide +kernel, _, simplified,
    applyAt_textConsistent_iff coherent attached consistent simplified⟩

end Fix

end TreeLint
