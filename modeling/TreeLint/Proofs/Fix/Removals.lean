import TreeLint.Fix.Apply
import TreeLint.Proofs.Fix.Moves
import TreeLint.Proofs.Fix.Tidying
import TreeLint.Proofs.Tree.Texts

/-! Fixes that take something away: a modifier of a declaration, and the bounds of a type parameter
that name the topmost class. Both of them tidy the tree. Whether a bound names the topmost class can
be seen from the bound alone, since no text that is put together from parts is a name of that class.
-/

namespace TreeLint

-----------------------------------------------------------------------------------------
-- Bounds that say nothing
-----------------------------------------------------------------------------------------

namespace Subtree

/-- No text with a character that is in neither name is a name of the topmost class. -/
private theorem not_objectName_of_mem {text : String} {c : Char} (member : c ∈ text.toList)
    (foreign : ∀ name ∈ objectNames, c ∉ name.toList)
    : text ∉ objectNames :=
  fun isName => foreign text isName member

/-- The text of a nameless node that is put together from those of its children is no name of the
topmost class, by cases on the kind of the node.
-/
theorem rebuild_not_objectName {node : Subtree} (nameless : node.name? = none)
    (noKeyword : node.kind.keyword? = none) (children : List (Subtree × String))
    : rebuild node children ∉ objectNames := by
  have noText : "" ∉ objectNames := by decide
  rw [rebuild, nameless]
  cases kind : node.kind with
  | binaryExpression =>
      refine not_objectName_of_mem (c := ' ') ?_ (by decide)
      simp [String.toList_append]
  | methodCall =>
      refine not_objectName_of_mem (c := '(') ?_ (by decide)
      cases valueAt? children .qualifier <;> simp [qualify, String.toList_append]
  | newExpression => exact not_objectName_of_mem (c := '(') (by simp) (by decide)
  | parenthesizedExpression =>
      refine not_objectName_of_mem (c := '(') ?_ (by decide)
      simp [String.toList_append]
  | referenceExpression =>
      cases valueAt? children .qualifier with
      | none => exact noText
      | some qualifier =>
          -- Both names have a dot nowhere or in the middle, and this text ends in one.
          intro isName
          have last (name : String) (isName : name ∈ objectNames)
              : name.toList.getLast? ≠ some '.' := by
            revert name
            decide
          exact last _ isName (by simp [qualify, String.toList_append])
  | _ =>
      rw [kind] at noKeyword
      first | exact noText | exact absurd noKeyword (by decide)

/-- Whether a node shows a name of the topmost class depends on its name and text alone. -/
theorem shownText_objectName_iff {node : Subtree}
    : node.shownText ∈ objectNames
      ↔ ∃ text ∈ objectNames, node.content.name.or node.content.text = some text := by
  have shown : node.shownText
      = ((node.content.name.or node.content.text).or node.kind.keyword?).getD node.sourceText := rfl
  rw [shown]
  cases written : node.content.name.or node.content.text with
  | some text => simp
  | none =>
      refine iff_of_false ?_ (by simp)
      obtain ⟨nameless, textless⟩ := Option.or_eq_none_iff.mp written
      rw [Option.none_or]
      cases keyword : node.kind.keyword? with
      | some word =>
          have plain (kind : NodeKind) : ∀ word ∈ kind.keyword?, word ∉ objectNames := by
            cases kind <;> decide
          exact plain node.kind word keyword
      | none =>
          have noText : node.text? = none := textless
          rw [Option.getD_none, sourceText_eq, noText]
          exact rebuild_not_objectName nameless keyword _

/-- The bounds of a type parameter that say nothing are its children that name the topmost class. -/
theorem mem_objectBounds_iff {parameter bound : Subtree}
    : bound ∈ parameter.objectBounds
      ↔ bound ∈ parameter.children ∧ bound.content.NamesObject := by
  rw [objectBounds, childrenWithRole, List.mem_filter, List.mem_filter, List.contains_iff_mem,
    shownText_objectName_iff, beq_iff_eq, and_assoc]
  rfl

end Subtree

namespace Tree

/-- The bounds that say nothing, as the arena names them. -/
theorem mem_objectBounds_ids {tree : Tree} {parameter : Subtree} {bound : NodeId}
    (shown : tree.subtree? parameter.id = some parameter)
    : bound ∈ parameter.objectBounds.map Subtree.id
      ↔ bound ∈ tree.childIds parameter.id
        ∧ ∃ content, tree.content? bound = some content ∧ content.NamesObject := by
  rw [← subtree?_children shown, List.mem_map, List.mem_map]
  constructor
  · rintro ⟨child, member, rfl⟩
    obtain ⟨inside, named⟩ := Subtree.mem_objectBounds_iff.mp member
    exact ⟨⟨child, inside, rfl⟩, child.content, content?_of_mem_children shown inside, named⟩
  · rintro ⟨⟨child, inside, rfl⟩, content, known, named⟩
    cases known.symm.trans (content?_of_mem_children shown inside)
    exact ⟨child, Subtree.mem_objectBounds_iff.mpr ⟨inside, named⟩, rfl⟩

-----------------------------------------------------------------------------------------
-- Cutting off several nodes
-----------------------------------------------------------------------------------------

/-- The tree with the links between a node and some of its children cut. -/
def cutAll (tree : Tree) (parent : NodeId) (ids : List NodeId) : Tree :=
  ids.foldl (·.cut parent ·) tree

@[simp] theorem cutAll_size (tree : Tree) (parent : NodeId) (ids : List NodeId)
    : (tree.cutAll parent ids).size = tree.size := by
  induction ids generalizing tree with
  | nil => rfl
  | cons first rest ih => exact (ih _).trans (cut_size tree parent first)

@[simp] theorem cutAll_root (tree : Tree) (parent : NodeId) (ids : List NodeId)
    : (tree.cutAll parent ids).root = tree.root := by
  induction ids generalizing tree with
  | nil => rfl
  | cons first rest ih => exact ih _

@[simp] theorem cutAll_writable (tree : Tree) (parent : NodeId) (ids : List NodeId)
    : (tree.cutAll parent ids).writable = tree.writable := by
  induction ids generalizing tree with
  | nil => rfl
  | cons first rest ih => exact ih _

@[simp] theorem cutAll_content? (tree : Tree) (parent : NodeId) (ids : List NodeId) (id : NodeId)
    : (tree.cutAll parent ids).content? id = tree.content? id := by
  induction ids generalizing tree with
  | nil => rfl
  | cons first rest ih => exact (ih _).trans (cut_content? tree parent first id)

theorem cutAll_parent? (tree : Tree) (parent : NodeId) (ids : List NodeId) (id : NodeId)
    : (tree.cutAll parent ids).parent? id = if id ∈ ids then none else tree.parent? id := by
  induction ids generalizing tree with
  | nil => simp [cutAll]
  | cons first rest ih =>
      have step := ih (tree.cut parent first)
      rw [cut_parent?] at step
      rw [cutAll, List.foldl_cons, ← cutAll, step]
      by_cases same : id = first <;> simp [same]

theorem cutAll_childIds (tree : Tree) (parent : NodeId) (ids : List NodeId) (id : NodeId)
    : (tree.cutAll parent ids).childIds id
      = if id = parent then (tree.childIds id).filter (!ids.contains ·) else tree.childIds id := by
  induction ids generalizing tree with
  | nil => simp [cutAll]
  | cons first rest ih =>
      have step := ih (tree.cut parent first)
      rw [cut_childIds] at step
      rw [cutAll, List.foldl_cons, ← cutAll, step]
      split
      · rw [List.filter_filter]
        refine List.filter_congr fun child _ => ?_
        by_cases same : child = first <;> simp [same]
      · rfl

/-- Cutting children off a node tidies a tree, if they are no types and the node is neither a pair
of parentheses nor a call.
-/
theorem tidied_cutAll {tree : Tree} {spared : NodeId → Prop} {parent : NodeId} {ids : List NodeId}
    (below : ∀ id ∈ ids, tree.parent? id = some parent)
    (noField : tree.kind? parent ≠ some .field)
    (notAround : tree.kind? parent ≠ some .parenthesizedExpression)
    (noCall : tree.kind? parent ≠ some .methodCall)
    : tree.Tidied spared (tree.cutAll parent ids) where
  contents id content before := ⟨content, by rwa [cutAll_content?], .refl content⟩
  parents id _ := by
    rw [cutAll_parent?]
    split
    · next member => exact Or.inr ⟨by simp [below id member], by simp⟩
    · exact Or.inl rfl
  shapes id := by
    have guises (child : NodeId) : (tree.cutAll parent ids).guise? child = tree.guise? child := by
      rw [guise?, guise?, cutAll_content?]
    by_cases here : id = parent
    · subst here
      exact .of_fewer (by rw [cutAll_childIds, if_pos rfl]) (fun child _ => guises child)
        (fun isField => absurd isField noField) notAround (fun isCall => absurd isCall noCall)
    · exact .of_children (by rw [cutAll_childIds, if_neg here]) fun child _ => guises child
  newContents id content new known :=
    absurd (lt_size_of_content? known) (by rw [cutAll_size]; exact Nat.not_lt_of_le new)
  newDeclarations id new isKind :=
    absurd (lt_size_of_kind? isKind) (by rw [cutAll_size]; exact Nat.not_lt_of_le new)

/-- Taking a modifier away tidies a tree. -/
theorem tidied_removeModifier (tree : Tree) (spared : NodeId → Prop) (id : NodeId)
    (modifier : Modifier)
    : tree.Tidied spared
        (tree.reword id fun content =>
          { content with modifiers := content.modifiers.filter (· != modifier) }) where
  contents other content before := by
    rw [reword_content?, before]
    split
    · exact ⟨_, rfl, rfl, rfl, rfl, rfl, fun extends_ => extends_, List.filter_subset_self _⟩
    · exact ⟨content, rfl, .refl content⟩
  parents other _ := Or.inl (by rw [reword_parent?])
  shapes other := by
    refine .of_children (by rw [reword_childIds]) fun child _ => ?_
    rw [guise?, guise?, reword_content?]
    split
    · cases tree.content? child <;> rfl
    · rfl
  newContents other content new known :=
    absurd (lt_size_of_content? known) (by rw [reword_size]; exact Nat.not_lt_of_le new)
  newDeclarations other new isKind :=
    absurd (lt_size_of_kind? isKind) (by rw [reword_size]; exact Nat.not_lt_of_le new)

/-- A declaration that lost the modifier `final` is not final. -/
theorem removeModifier_not_isFinal (tree : Tree) (id : NodeId)
    : ¬(tree.reword id fun content =>
        { content with modifiers := content.modifiers.filter (· != .final) }).IsFinal id := by
  rintro ⟨now, known, final⟩
  rw [reword_content?, if_pos rfl] at known
  obtain ⟨content, _, rfl⟩ := Option.map_eq_some_iff.mp known
  simp [Content.hasModifier] at final

end Tree

namespace Fix

-----------------------------------------------------------------------------------------
-- What the fixes do
-----------------------------------------------------------------------------------------

theorem removeModifier_succeeded {tree after : Tree} {anchor : NodeId} {modifier : Modifier}
    (succeeded : ((removeModifier modifier).applyAt anchor).apply tree = (.ok (), after))
    : after
      = tree.reword anchor fun content =>
          { content with modifiers := content.modifiers.filter (· != modifier) } :=
  (Edit.reword_succeeded succeeded).2

/-- Nodes below the same one that were all cut off are cut off, by induction on the list. -/
theorem detachAll_succeeded {tree after : Tree} {parent : NodeId} {ids : List NodeId}
    (siblings : tree.Siblings parent ids)
    (succeeded : (detachAll ids).apply tree = (.ok (), after))
    : after = tree.cutAll parent ids := by
  induction ids generalizing tree with
  | nil => exact (congrArg Prod.snd succeeded).symm
  | cons id rest ih =>
      obtain ⟨_, middle, first, later⟩ := Edit.bind_succeeded succeeded
      obtain ⟨upper, up, rfl⟩ := Edit.detach_succeeded first
      cases up.symm.trans (siblings.below id List.mem_cons_self)
      exact ih (siblings.rest (tree.cut_frame parent id)) later

/-- The bounds of a type parameter that say nothing are cut off. -/
theorem removeObjectBound_succeeded {tree after : Tree} (linked : tree.Linked) {anchor : NodeId}
    (succeeded : (removeObjectBound.applyAt anchor).apply tree = (.ok (), after))
    : ∃ parameter,
        tree.subtree? anchor = some parameter
        ∧ after = tree.cutAll anchor (parameter.objectBounds.map Subtree.id)
        ∧ tree.Siblings anchor (parameter.objectBounds.map Subtree.id) := by
  obtain ⟨_, _, rest⟩ := Edit.ensureNode_succeeded succeeded
  have looked := Edit.current_succeeded rest
  cases shown : tree.subtree? anchor with
  | none =>
      rw [shown] at looked
      exact absurd looked Edit.failed_ne_succeeded
  | some parameter =>
      rw [shown] at looked
      have bounds : parameter.objectBounds.Sublist parameter.children :=
        List.filter_sublist.trans List.filter_sublist
      have siblings := linked.siblings shown bounds
      exact ⟨parameter, rfl, detachAll_succeeded siblings looked, siblings⟩

end Fix

end TreeLint
