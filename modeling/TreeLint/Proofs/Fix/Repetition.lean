import TreeLint.Proofs.Fix.CutOffs
import TreeLint.Proofs.Tree.Agreement
import TreeLint.Proofs.Tree.Loading

/-! Fixes that are applied a second time at the same anchor. Most of them find what the first time
left, and then fail over the shape of the tree or have nothing to do. The fix that introduces a
variable takes any receiver for one that needs a name, also the reference to the variable that it
has put there itself. Main result: the second time a fix is harmless unless it introduces a variable
for a call that is attached to the tree.
-/

namespace TreeLint

open Relation

namespace Fix

open TreeLint.Tree

variable {tree after : Tree} {anchor : NodeId}

-----------------------------------------------------------------------------------------
-- Harmless fixes
-----------------------------------------------------------------------------------------

/-- Applied to the tree, the fix fails over the shape of the tree or succeeds, and either way the tree
is written to the same document as before.
-/
def HarmlessAt (fix : Fix) (tree : Tree) (anchor : NodeId) : Prop :=
  ∃ outcome after,
    (fix.applyAt anchor).apply tree = (outcome, after)
    ∧ (outcome = .ok () ∨ ∃ id fault, outcome = .error (.shape id fault))
    ∧ after.toDocument = tree.toDocument

/-- A fix that succeeds and leaves the tree alone is harmless. -/
theorem HarmlessAt.of_idle {fix : Fix} (idle : (fix.applyAt anchor).apply tree = (.ok (), tree))
    : fix.HarmlessAt tree anchor :=
  ⟨_, _, idle, .inl rfl, rfl⟩

/-- A fix that fails over the shape of the tree and leaves the tree alone is harmless. -/
theorem HarmlessAt.of_shape {fix : Fix} {id : NodeId} {fault : ShapeFault}
    (fails : (fix.applyAt anchor).apply tree = (.error (.shape id fault), tree))
    : fix.HarmlessAt tree anchor :=
  ⟨_, _, fails, .inr ⟨id, fault, rfl⟩, rfl⟩

-----------------------------------------------------------------------------------------
-- Modifiers, names and bounds
-----------------------------------------------------------------------------------------

/-- Saying something anew that is already said so leaves the tree as it is. -/
theorem reword_again {f : Content → Content} (again : ∀ content, f (f content) = f content)
    (tree : Tree) (id : NodeId)
    : (tree.reword id f).reword id f = tree.reword id f := by
  have nodes
      : (tree.reword id f).nodes.modify id (fun node => { node with content := f node.content })
        = (tree.reword id f).nodes := by
    refine Array.ext_getElem? fun i => ?_
    simp only [reword, updateNode, Array.getElem?_modify]
    split
    · cases tree.nodes[i]? <;> simp [again]
    · rfl
  exact congrArg (fun nodes => { tree.reword id f with nodes }) nodes

theorem reword_harmless {fix : Fix} {f : Content → Content}
    (again : ∀ content, f (f content) = f content)
    (rewords : fix.applyAt anchor = (do Edit.ensureNode anchor; Edit.modifyContent anchor f))
    (succeeded : (fix.applyAt anchor).apply tree = (.ok (), after))
    : fix.HarmlessAt after anchor := by
  rw [rewords] at succeeded
  obtain ⟨writable, present, _⟩ := Edit.ensureNode_succeeded succeeded
  obtain ⟨_, rfl⟩ := Edit.reword_succeeded succeeded
  have stillWritable : (tree.reword anchor f).writable := writable
  refine .of_idle ?_
  rw [rewords, Edit.ensureNode_bind stillWritable (by rwa [reword_size]),
    Edit.modifyContent_apply, reword_again again]

/-- Bounds that were cut off are not there to be cut off again. -/
theorem removeObjectBound_harmless (coherent : tree.Coherent)
    (succeeded : (removeObjectBound.applyAt anchor).apply tree = (.ok (), after))
    : removeObjectBound.HarmlessAt after anchor := by
  obtain ⟨writable, present, _⟩ := Edit.ensureNode_succeeded succeeded
  have afterCoherent := coherent_of_applyAt coherent succeeded
  obtain ⟨parameter, shown, rfl, _⟩ := removeObjectBound_succeeded coherent.toLinked succeeded
  obtain rfl := subtree?_id shown
  have stillWritable {ids : List NodeId} : (tree.cutAll parameter.id ids).writable := by
    rwa [cutAll_writable]
  have stillPresent {ids : List NodeId} : parameter.id < (tree.cutAll parameter.id ids).size := by
    rwa [cutAll_size]
  obtain ⟨now, nowShown⟩ := afterCoherent.subtree?_exists stillPresent
  have number := subtree?_id nowShown
  have none : now.objectBounds.map Subtree.id = [] := by
    refine List.eq_nil_iff_forall_not_mem.mpr fun bound member => ?_
    rw [mem_objectBounds_ids (number ▸ nowShown), number, cutAll_childIds, if_pos rfl,
      cutAll_content?, List.mem_filter] at member
    obtain ⟨⟨inside, spared⟩, named⟩ := member
    rw [List.contains_iff_mem.mpr ((mem_objectBounds_ids shown).mpr ⟨inside, named⟩)] at spared
    cases spared
  refine .of_idle ?_
  change (removeObjectBoundAt parameter.id).apply _ = _
  rw [removeObjectBoundAt, Edit.ensureNode_bind stillWritable stillPresent, Edit.current_bind,
    nowShown]
  simp only [none]
  rfl

-----------------------------------------------------------------------------------------
-- Text in the place of an expression
-----------------------------------------------------------------------------------------

/-- Text that replaces an expression has no shape that gives text. -/
theorem replaceAt_harmless (coherent : tree.Coherent) {fix : Fix} {fault : ShapeFault}
    {text? : Subtree → Option String} (replaces : fix.applyAt anchor = replaceAt anchor fault text?)
    (plain : ∀ node : Subtree, node.facts = { } → node.name? = none → text? node = none)
    (succeeded : (fix.applyAt anchor).apply tree = (.ok (), after))
    : fix.HarmlessAt after anchor := by
  rw [replaces] at succeeded
  obtain ⟨writable, present, _⟩ := Edit.ensureNode_succeeded succeeded
  obtain ⟨found, text, shown, _, rfl⟩ := replaceAt_succeeded succeeded
  have stillWritable : (tree.fragment anchor text).writable := by
    simpa [fragment] using writable
  have stillPresent : anchor < (tree.fragment anchor text).size := by
    rwa [fragment_size]
  obtain ⟨now, nowShown⟩ := (coherent.fragment anchor text).subtree?_exists stillPresent
  have content : now.content = found.content.asText text := by
    obtain rfl := subtree?_id shown
    have number := subtree?_id nowShown
    have numbered : (tree.fragment found.id text).subtree? now.id = some now := by rwa [number]
    rw [fragment_content_shown shown numbered number, if_pos rfl]
  have textless : ((tree.fragment anchor text).subtree? anchor).bind text? = none := by
    rw [nowShown]
    exact plain now (congrArg Content.facts content) (congrArg Content.name content)
  have fails : (fix.applyAt anchor).apply (tree.fragment anchor text)
      = (.error (.shape anchor fault), tree.fragment anchor text) := by
    rw [replaces, replaceAt, Edit.ensureNode_bind stillWritable stillPresent, Edit.current_bind,
      Edit.require_bind_none textless]
  exact .of_shape fails

-----------------------------------------------------------------------------------------
-- Declarations
-----------------------------------------------------------------------------------------

/-- In a declaration in a block, the variables behind the first are moved to places right behind the
declaration.
-/
theorem splitStatement_apply (linked : tree.Linked) {statement block : NodeId}
    (up : tree.parent? anchor = some statement)
    (isDeclaration : tree.kind? statement = some .declarationStatement)
    (inBlock : tree.parent? statement = some block)
    : (splitStatement anchor).apply tree
      = (declareApart block ((tree.indexInParent? statement).getD 0 + 1)
          ((tree.variablesOf statement).drop 1)).apply tree := by
  obtain ⟨node, shown⟩ := linked.subtree?_exists (lt_size_of_kind? isDeclaration)
  obtain rfl := subtree?_id shown
  have kind : node.kind = .declarationStatement := kind_of_shown shown isDeclaration
  have found : (tree.parentSubtree? anchor).filter (·.kind == .declarationStatement)
      = some node := by
    rw [parentSubtree?, up, Option.bind_some, shown, Option.filter_some, if_pos (beq_iff_eq.mpr kind)]
  rw [splitStatement, Edit.current_bind, Edit.require_bind found, Edit.require_bind inBlock,
    ← childrenOfKind_localVariable shown, ← List.map_drop]

/-- A statement with a single variable has nothing to split. -/
theorem splitStatement_idle (linked : tree.Linked) {statement block : NodeId}
    (up : tree.parent? anchor = some statement)
    (isDeclaration : tree.kind? statement = some .declarationStatement)
    (inBlock : tree.parent? statement = some block)
    (single : (tree.variablesOf statement).drop 1 = [])
    : (splitStatement anchor).apply tree = (.ok (), tree) := by
  rw [splitStatement_apply linked up isDeclaration inBlock, single]
  rfl

/-- A variable that was split off, or that the others were split off from, is alone in its
declaration.
-/
theorem splitStatement_again (coherent : tree.Coherent)
    (succeeded : (splitStatement anchor).apply tree = (.ok (), after))
    : (splitStatement anchor).apply after = (.ok (), after) := by
  obtain ⟨statement, block, index, up, isDeclaration, each, distinct, moves⟩ :=
    splitStatement_moves coherent succeeded
  have apart := declareApart_succeeded coherent each distinct (Nat.succ_pos index) moves
  have linked := apart.coherent.toLinked
  by_cases moved : anchor ∈ (tree.variablesOf statement).drop 1
  · obtain ⟨declaration, new, declared⟩ :=
      declareApart_declared coherent each distinct moves anchor moved
    exact splitStatement_idle linked declared.below declared.isDeclaration declared.inBlock
      (apart.tidied.newDeclarations declaration new declared.isDeclaration)
  · cases others : (tree.variablesOf statement).drop 1 with
    | nil =>
        rw [others] at moves
        obtain rfl : tree = after := congrArg Prod.snd moves
        exact succeeded
    | cons other rest =>
        -- The statement is no variable, so it stays where it is.
        have among : other ∈ (tree.variablesOf statement).drop 1 := others ▸ List.mem_cons_self
        have declaredIn := each other among
        have still : statement ∉ (tree.variablesOf statement).drop 1 := fun member =>
          absurd ((each statement member).isVariable.symm.trans isDeclaration) (by decide)
        have isStill : after.kind? statement = some .declarationStatement := by
          rw [kind?, apart.contents _ declaredIn.statementOld]
          exact isDeclaration
        have below : after.parent? anchor = some statement := by
          rw [apart.frame.parents _ (lt_size_of_parent? up) moved, up]
        have inBlock : after.parent? statement = some block := by
          rw [apart.frame.parents _ declaredIn.statementOld still, declaredIn.inBlock]
        refine splitStatement_idle linked below isStill inBlock ?_
        refine List.eq_nil_iff_forall_not_mem.mpr fun id listed => ?_
        have behind : after.StandsBehind statement id := standsBehind_iff.mpr ⟨isStill, listed⟩
        have before := apart.tidied.standsBehind_before behind
        exact apart.alone id (standsBehind_iff.mp before).2 statement behind

/-- What was split is split, and a field that got its type has one. -/
theorem splitDeclaration_harmless (coherent : tree.Coherent)
    (succeeded : (splitDeclaration.applyAt anchor).apply tree = (.ok (), after))
    : splitDeclaration.HarmlessAt after anchor := by
  obtain ⟨writable, present, _⟩ := Edit.ensureNode_succeeded succeeded
  obtain ⟨node, shown, cases⟩ := splitDeclaration_cases succeeded
  obtain rfl := subtree?_id shown
  have apart : ∃ moved, tree.Apart moved after := by
    rcases cases with ⟨_, splits⟩ | ⟨isField, writes⟩
    · obtain ⟨_, _, _, apart⟩ := splitStatement_succeeded coherent splits
      exact ⟨_, apart⟩
    · exact ⟨[], (writeFieldType_succeeded coherent shown isField writes).1⟩
  obtain ⟨moved, apart⟩ := apart
  have stillWritable : after.writable := apart.frame.writable.trans writable
  have stillPresent : node.id < after.size := Nat.lt_of_lt_of_le present apart.frame.grows
  obtain ⟨now, nowShown⟩ := apart.coherent.subtree?_exists stillPresent
  have kind : now.kind = node.kind := by
    have known := kind?_of_shown (subtree?_id nowShown ▸ nowShown)
    rw [subtree?_id nowShown, kind?, apart.contents _ present, ← kind?, kind?_of_shown shown] at known
    exact (Option.some.inj known).symm
  refine .of_idle ?_
  change (splitDeclarationAt node.id).apply after = _
  rw [splitDeclarationAt, Edit.ensureNode_bind stillWritable stillPresent, Edit.current_bind,
    nowShown]
  rcases cases with ⟨isVariable, splits⟩ | ⟨isField, writes⟩
  · simp only [kind, isVariable]
    exact splitStatement_again coherent splits
  · have typed := (writeFieldType_succeeded coherent shown isField writes).2
    rw [← subtree?_id nowShown, bareField_iff (subtree?_id nowShown ▸ nowShown), kind, isField,
      and_iff_right rfl] at typed
    simp only [kind, isField]
    rw [writeFieldType, if_neg typed]
    rfl

-----------------------------------------------------------------------------------------
-- Anonymous classes
-----------------------------------------------------------------------------------------

/-- A tree in which an anonymous class got a name may still be changed. -/
theorem nameInnerClass_writable
    (succeeded : (nameInnerClass.applyAt anchor).apply tree = (.ok (), after))
    : after.writable := by
  obtain ⟨_, _, more⟩ := Edit.ensureNode_succeeded succeeded
  obtain ⟨_, _, more⟩ := Edit.require_succeeded (Edit.current_succeeded more)
  obtain ⟨_, _, more⟩ := Edit.require_succeeded more
  obtain ⟨_, _, more⟩ := Edit.require_succeeded more
  obtain ⟨_, _, _, more⟩ := Edit.bind_succeeded more
  obtain ⟨_, _, _, more⟩ := Edit.bind_succeeded more
  obtain ⟨_, hung, _, replaced⟩ := Edit.bind_succeeded more
  -- The last step asks once more whether it may.
  obtain ⟨writable, _, _⟩ := Edit.ensureNode_succeeded replaced
  rw [Edit.replaceWithText_succeeded replaced]
  simpa [fragment] using writable

/-- The parent of a node passes the test for an anonymous class exactly if it is one. -/
theorem parentSubtree?_anonymous (linked : tree.Linked) {upper : NodeId} {kind : NodeKind}
    (up : tree.parent? anchor = some upper) (isKind : tree.kind? upper = some kind)
    : ∃ node,
        node.id = upper
        ∧ (tree.parentSubtree? anchor).filter (·.kind == .anonymousClass)
          = if kind = .anonymousClass then some node else none := by
  obtain ⟨node, shown⟩ := linked.subtree?_exists (lt_size_of_kind? isKind)
  obtain rfl := subtree?_id shown
  have same := kind_of_shown shown isKind
  refine ⟨node, rfl, ?_⟩
  rw [parentSubtree?, up, Option.bind_some, shown, Option.filter_some, same]
  simp only [beq_iff_eq]

/-- A node below no anonymous class is not the base of one. -/
theorem nameInnerClass_noBase (linked : tree.Linked) (writable : tree.writable) {upper : NodeId}
    {kind : NodeKind} (up : tree.parent? anchor = some upper)
    (isKind : tree.kind? upper = some kind) (other : kind ≠ .anonymousClass)
    : (nameInnerClassAt anchor).apply tree
      = (.error (.shape anchor .notAnonymousBase), tree) := by
  obtain ⟨_, _, missing⟩ := parentSubtree?_anonymous linked up isKind
  rw [if_neg other] at missing
  rw [nameInnerClassAt, Edit.ensureNode_bind writable (lt_size_of_parent? up), Edit.current_bind,
    Edit.require_bind_none missing]

/-- An anonymous class that was cut off gets no name. -/
theorem nameInnerClass_loose (linked : tree.Linked) (writable : tree.writable)
    {anonymous : NodeId} (up : tree.parent? anchor = some anonymous)
    (isAnonymous : tree.kind? anonymous = some .anonymousClass)
    (loose : tree.parent? anonymous = none)
    : (nameInnerClassAt anchor).apply tree
      = (.error (.shape anonymous .anonymousDetached), tree) := by
  obtain ⟨node, rfl, found⟩ := parentSubtree?_anonymous linked up isAnonymous
  rw [if_pos rfl] at found
  rw [nameInnerClassAt, Edit.ensureNode_bind writable (lt_size_of_parent? up), Edit.current_bind,
    Edit.require_bind found, Edit.require_bind_none loose]

/-- The base of an anonymous class that got a name hangs below the rest of that class, which is cut
off, or it moved to the named class as a member.
-/
theorem nameInnerClass_harmless (coherent : tree.Coherent)
    (succeeded : (nameInnerClass.applyAt anchor).apply tree = (.ok (), after))
    : nameInnerClass.HarmlessAt after anchor := by
  have linked := (coherent_of_applyAt coherent succeeded).toLinked
  have writable := nameInnerClass_writable succeeded
  obtain ⟨anonymous, creation, outer, name, base, text, filled, up, shown, isAnonymous, created, _,
    siblings, moved, hangable, isAfter⟩ := nameInnerClass_moves coherent succeeded
  have parents := (coherent.parent?_of_moved text created moved hangable).2
  rw [← isAfter] at parents
  have kinds {id : NodeId} (other : id ≠ creation)
      : after.kind? id = (tree.grow (innerClassOutline name base)).kind? id := by
    rw [isAfter, kind?, fragment_content?, if_neg other, hang_content?, moved.contents, kind?]
  have anchorUp := parents anchor (lt_size_of_parent? up)
  by_cases member : anchor ∈ movedMembers anonymous
  · rw [if_pos member] at anchorUp
    have isNamed : after.kind? tree.size = some .namedClass := by
      rw [kinds (Nat.ne_of_gt (coherent.parent_lt created)), kind?]
      exact congrArg _ (tree.grow_content?_add (innerClassOutline name base) 0)
    exact .of_shape (nameInnerClass_noBase linked writable anchorUp isNamed (by decide))
  · have apart : anonymous.id ≠ creation := fun same =>
      coherent.acyclic _ (.single (same ▸ created))
    have noCreation : tree.parent? anchor ≠ some creation := fun same =>
      apart (Option.some.inj (up.symm.trans same))
    rw [if_neg member, if_neg noCreation, up] at anchorUp
    have old := lt_size_of_parent? created
    have loose : after.parent? anonymous.id = none := by
      rw [parents _ old, if_neg (siblings.parent_not_mem coherent.toLinked), if_pos created]
    have isStill : after.kind? anonymous.id = some .anonymousClass := by
      rw [kinds apart, kind?, grow_content?_of_lt old, ← kind?, kind?_of_shown shown, isAnonymous]
    exact .of_shape (nameInnerClass_loose linked writable anchorUp isStill loose)

-----------------------------------------------------------------------------------------
-- Variables
-----------------------------------------------------------------------------------------

end Fix

namespace Tree

variable {tree : Tree} {call receiver block : NodeId} {index : Nat} {name typeName : String}

theorem withVariable_sameFile
    : tree.SameFile (tree.withVariable call receiver block index name typeName) := by
  constructor <;>
    simp only [withVariable, withDeclaration, hang, grow, reword, cut, relink, rearrange, updateNode]

namespace Introduces

/-- The reference to the variable is the receiver of the call now. -/
theorem receiver_again (introduces : tree.Introduces call receiver block) (linked : tree.Linked)
    : (tree.withVariable call receiver block index name typeName).childAt? call .qualifier
      = some (tree.size + 2) := by
  have callOld := introduces.callOld linked
  rw [childAt?, introduces.childIds linked callOld, if_pos rfl, List.find?_cons_of_pos]
  rw [Tree.content?, withVariable_reference callOld]
  rfl

/-- A statement in a block above the call is so still, by induction on the way up. -/
theorem statement_again (introduces : tree.Introduces call receiver block) (linked : tree.Linked)
    {statement : NodeId} (above : tree.Above statement call)
    (inBlock : Fix.isBlockStatement tree statement)
    : let after := tree.withVariable call receiver block index name typeName
      after.Above statement call ∧ Fix.isBlockStatement after statement := by
  intro after
  have still {id : NodeId} (higher : ReflTransGen tree.IsParent id call) : id ≠ receiver := by
    rintro rfl
    exact linked.acyclic id (TransGen.tail' higher (introduces.below linked))
  have kept {id upper : NodeId} (higher : ReflTransGen tree.IsParent id call)
      (link : tree.parent? id = some upper)
      : after.parent? id = some upper := by
    rw [introduces.parent? linked (lt_size_of_parent? link), if_neg (still higher), link]
  have told {id : NodeId} (higher : ReflTransGen tree.IsParent id call)
      : after.content? id = tree.content? id := by
    refine (introduces.content? linked ?_).trans (if_neg (still higher))
    rcases reflTransGen_iff_eq_or_transGen.mp higher with rfl | upper
    · exact introduces.callOld linked
    · exact (linked.above_lt upper).1
  constructor
  · clear inBlock
    induction above using TransGen.head_induction_on with
    | single link => exact .single (kept .refl link)
    | head link upper ih => exact .head (kept upper.to_reflTransGen link) ih
  · have way := above.to_reflTransGen
    cases up : tree.parent? statement with
    | none => simp [Fix.isBlockStatement, parentContent?, up] at inBlock
    | some upper =>
        rw [Fix.isBlockStatement, parentContent?, up, Option.bind_some] at inBlock
        rwa [Fix.isBlockStatement, parentContent?, kept way up, Option.bind_some, told way,
          told (.head up way)]

/-- Away from the call, the receiver and the block, the old nodes are what they were. -/
theorem sameNode (introduces : tree.Introduces call receiver block) (linked : tree.Linked)
    {id : NodeId} (old : id < tree.size) (notCall : id ≠ call) (notReceiver : id ≠ receiver)
    (notBlock : id ≠ block)
    : tree.SameNode (tree.withVariable call receiver block index name typeName) id where
  content := by rw [introduces.content? linked old, if_neg notReceiver]
  children := by rw [introduces.childIds linked old, if_neg notCall, if_neg notBlock]

/-- A variable that is introduced away from the attached part leaves that as it was. -/
theorem toDocument_eq (introduces : tree.Introduces call receiver block)
    (coherent : tree.Coherent)
    (afterLinked : (tree.withVariable call receiver block index name typeName).Linked)
    (apart : ¬tree.Attached call)
    : (tree.withVariable call receiver block index name typeName).toDocument
      = tree.toDocument := by
  have linked := coherent.toLinked
  refine coherent.toDocument_of_same afterLinked withVariable_sameFile withVariable_root ?_
  intro id attached
  refine introduces.sameNode linked ?_ ?_ ?_ ?_
  · exact coherent.lt_size_of_mem_preorder (coherent.attached_iff.mp attached)
  · rintro rfl
    exact apart attached
  · rintro rfl
    obtain ⟨parent, up, upper⟩ := attached.exists_parent (coherent.ne_root (introduces.below linked))
    cases up.symm.trans (introduces.below linked)
    exact apart upper
  · rintro rfl
    exact apart (attached.trans introduces.around.to_reflTransGen)

end Introduces

end Tree

namespace Fix

open TreeLint.Tree

variable {tree after : Tree} {anchor : NodeId}

/-- A call with a receiver in a statement of a block was all that the fix needed. -/
theorem introduceVariable_needs (coherent : tree.Coherent)
    (succeeded : (introduceVariable.applyAt anchor).apply tree = (.ok (), after))
    : ∃ statement, tree.Above statement anchor ∧ isBlockStatement tree statement := by
  obtain ⟨_, statement, _, _, found, _⟩ := introduceVariable_moves coherent succeeded
  exact ⟨statement, coherent.mem_ancestors.mp (List.mem_of_find?_eq_some found),
    List.find?_some found⟩

/-- A call with a receiver in a statement of a block is all that the fix needs. -/
theorem introduceVariable_ok (coherent : tree.Coherent) (writable : tree.writable)
    {receiver statement : NodeId} (receiverAt : tree.childAt? anchor .qualifier = some receiver)
    (above : tree.Above statement anchor) (inBlock : isBlockStatement tree statement)
    : ∃ after, (introduceVariable.applyAt anchor).apply tree = (.ok (), after) := by
  have present := (coherent.above_lt above).2
  obtain ⟨call, shown⟩ := coherent.subtree?_exists present
  obtain rfl := subtree?_id shown
  rw [← childWithRole?_id shown] at receiverAt
  obtain ⟨qualifier, isQualifier, rfl⟩ := Option.map_eq_some_iff.mp receiverAt
  have among : ((tree.ancestors call.id).find? (isBlockStatement tree)).isSome :=
    List.find?_isSome.mpr ⟨statement, coherent.mem_ancestors.mpr above, inBlock⟩
  obtain ⟨nearest, found⟩ := Option.isSome_iff_exists.mp among
  have nearestAbove := coherent.mem_ancestors.mp (List.mem_of_find?_eq_some found)
  have nearestIn := List.find?_some found
  obtain ⟨block, up⟩ : ∃ block, tree.parent? nearest = some block := by
    refine Option.ne_none_iff_exists'.mp fun top => ?_
    simp [isBlockStatement, parentContent?, top] at nearestIn
  have receiverUp := coherent.parent?_of_mem_children shown (List.mem_of_find?_eq_some isQualifier)
  have succeeds := introduceVariable_succeeds coherent writable receiverUp (.head up nearestAbove)
    (Outline.localVariable (variableName qualifier.stripParentheses) (qualifier.typeName?.getD "var"))
    (referenceOutline (variableName qualifier.stripParentheses) (qualifier.typeName?.getD "var"))
    ((tree.indexInParent? nearest).getD 0)
  obtain ⟨_, after, ends⟩ := succeeds
  refine ⟨after, ?_⟩
  change (introduceVariableAt call.id).apply tree = _
  rw [introduceVariableAt, Edit.ensureNode_bind writable present, Edit.current_bind, shown]
  simp only
  rw [Edit.require_bind isQualifier, Edit.require_bind found, Edit.require_bind up]
  exact ends

/-- The reference that was put in the place of the receiver is a receiver in its turn. -/
theorem introduceVariable_again (coherent : tree.Coherent)
    (succeeded : (introduceVariable.applyAt anchor).apply tree = (.ok (), after))
    : ∃ again, (introduceVariable.applyAt anchor).apply after = (.ok (), again) := by
  have afterCoherent := coherent_of_applyAt coherent succeeded
  obtain ⟨writable, _, _⟩ := Edit.ensureNode_succeeded succeeded
  obtain ⟨statement, above, inBlock⟩ := introduceVariable_needs coherent succeeded
  obtain ⟨receiver, block, index, name, typeName, introduces, rfl⟩ :=
    introduceVariable_succeeded coherent succeeded
  have linked := coherent.toLinked
  have stillWritable : (tree.withVariable anchor receiver block index name typeName).writable :=
    (introduces.frame linked).writable.trans writable
  obtain ⟨aboveStill, inBlockStill⟩ := introduces.statement_again linked above inBlock
  exact introduceVariable_ok afterCoherent stillWritable (introduces.receiver_again linked)
    aboveStill inBlockStill

/-- A variable for an attached call makes the document longer. -/
theorem introduceVariable_changes (coherent : tree.Coherent) (attached : tree.Attached anchor)
    (succeeded : (introduceVariable.applyAt anchor).apply tree = (.ok (), after))
    : after.toDocument ≠ tree.toDocument := by
  have afterCoherent := coherent_of_applyAt coherent succeeded
  have pruned := introduceVariable_pruned coherent succeeded
  obtain ⟨receiver, block, index, name, typeName, introduces, isAfter⟩ :=
    introduceVariable_succeeded coherent succeeded
  have linked := coherent.toLinked
  have blockAttached :=
    coherent.attached_upward attached introduces.around.to_reflTransGen
  have up : after.parent? tree.size = some block := by
    rw [isAfter, Tree.parent?, withVariable_declaration (introduces.callOld linked)
      (introduces.receiverOld linked) (introduces.blockOld linked)]
    rfl
  have kept : {id | tree.Attached id} ⊆ {id | after.Attached id} :=
    fun id before => pruned.attached_after coherent before not_false
  have new : tree.size ∈ {id | after.Attached id} := (kept blockAttached).tail up
  have absent : tree.size ∉ {id | tree.Attached id} := fun old =>
    Nat.lt_irrefl _ (coherent.lt_size_of_mem_preorder (coherent.attached_iff.mp old))
  have more := Set.ncard_lt_ncard (Set.ssubset_iff_of_subset kept |>.mpr ⟨_, new, absent⟩)
    afterCoherent.finite_attached
  rw [← coherent.size_reloaded, ← afterCoherent.size_reloaded] at more
  exact fun same => Nat.ne_of_gt more (congrArg (fun document => (ofDocument document).size) same)

-----------------------------------------------------------------------------------------
-- All fixes
-----------------------------------------------------------------------------------------

/-- The second time, the fix that introduces a variable is harmless only away from the attached part.
-/
theorem introduceVariable_harmless_iff (coherent : tree.Coherent)
    (succeeded : (introduceVariable.applyAt anchor).apply tree = (.ok (), after))
    : introduceVariable.HarmlessAt after anchor ↔ ¬tree.Attached anchor := by
  have afterCoherent := coherent_of_applyAt coherent succeeded
  have present := (Edit.ensureNode_succeeded succeeded).2.1
  have attached := (introduceVariable_pruned coherent succeeded).attached_iff coherent afterCoherent
    present
  rw [not_false_iff, and_true] at attached
  rw [← attached]
  obtain ⟨again, repeats⟩ := introduceVariable_again coherent succeeded
  constructor
  · rintro ⟨outcome, other, same, _, unchanged⟩ inTree
    rw [repeats] at same
    cases same
    exact introduceVariable_changes afterCoherent inTree repeats unchanged
  · intro apart
    refine ⟨_, _, repeats, .inl rfl, ?_⟩
    have againCoherent := coherent_of_applyAt afterCoherent repeats
    obtain ⟨receiver, block, index, name, typeName, introduces, rfl⟩ :=
      introduceVariable_succeeded afterCoherent repeats
    exact introduces.toDocument_eq afterCoherent againCoherent.toLinked apart

/-- Any other fix is harmless the second time. -/
theorem harmless_again {fix : Fix} (coherent : tree.Coherent) (other : fix ≠ .introduceVariable)
    (succeeded : (fix.applyAt anchor).apply tree = (.ok (), after))
    : fix.HarmlessAt after anchor := by
  cases fix with
  | removeModifier modifier =>
      refine reword_harmless (fun content => ?_) rfl succeeded
      simp only [List.filter_filter, Bool.and_self]
  | nameInnerClass => exact nameInnerClass_harmless coherent succeeded
  | splitDeclaration => exact splitDeclaration_harmless coherent succeeded
  | introduceVariable => exact absurd rfl other
  | simplify =>
      refine replaceAt_harmless coherent rfl (fun node factless _ => ?_) succeeded
      rw [BitwiseOperation.pointless?, BitwiseOperation.ofExpression?, factless]
      rfl
  | removeObjectBound => exact removeObjectBound_harmless coherent succeeded
  | flipEquals =>
      refine replaceAt_harmless coherent rfl (fun node _ nameless => ?_) succeeded
      rw [LiteralComparison.ofCall?, nameless]
      rfl
  | rename name =>
      exact reword_harmless (f := ({ · with name := some name })) (fun _ => rfl) rfl succeeded

end Fix

/-- The fix of a diagnostic that was applied once is harmless when it is applied again, unless it
introduces a variable for a call that is attached to the tree: then it succeeds once more and the
document changes.
-/
theorem Diagnostic.applyFix_again {tree after : Tree} (reachable : tree.Reachable)
    (diagnostic : Diagnostic) (succeeded : diagnostic.applyFix.apply tree = (.ok (), after))
    : (∃ outcome again,
        diagnostic.applyFix.apply after = (outcome, again)
        ∧ (outcome = .ok () ∨ ∃ id fault, outcome = .error (.shape id fault))
        ∧ again.toDocument = after.toDocument)
      ↔ ¬(diagnostic.fix = some .introduceVariable ∧ tree.Attached diagnostic.anchor) := by
  rw [Diagnostic.applyFix] at succeeded ⊢
  cases offered : diagnostic.fix with
  | none =>
      rw [offered] at succeeded
      exact absurd succeeded Edit.failed_ne_succeeded
  | some fix =>
      rw [offered] at succeeded
      change fix.HarmlessAt after diagnostic.anchor ↔ _
      by_cases introduces : fix = .introduceVariable
      · subst introduces
        rw [Fix.introduceVariable_harmless_iff reachable.coherent succeeded, and_iff_right rfl]
      · have harmless := Fix.harmless_again reachable.coherent introduces succeeded
        exact iff_of_true harmless fun both => introduces (Option.some.inj both.left)

/-- A file with a call on the result of another call. -/
def chainedCall : Document where
  root :=
    Outline.file.withChild <| (Outline.namedClass "A").withChild <|
      (Outline.method "m").withChild <| Outline.codeBlock.withChild <|
        Outline.expressionStatement <|
          Outline.call "c" (some (Outline.call "b" (some (Outline.referenceExpression "a"))))

/-- The outer call is reported with a fix, and the fix is applied. -/
theorem chainedCall_fixed
    : let tree := Tree.ofDocument chainedCall
      ∃ diagnostic ∈
          (Inspection.inspectTree (Rule.chainedMethodCall true) tree { interactive := true }
            none).reported,
        diagnostic.fix = some .introduceVariable
        ∧ tree.Attached diagnostic.anchor
        ∧ ∃ after, diagnostic.applyFix.apply tree = (.ok (), after) := by
  intro tree
  have coherent : tree.Coherent := Tree.ofDocument_coherent chainedCall
  have reported : ((Inspection.inspectTree (Rule.chainedMethodCall true) tree { interactive := true }
      none).reported).map (fun diagnostic => (diagnostic.fix, diagnostic.anchor))
        = [(some .introduceVariable, 5)] := by decide +kernel
  have receiver : tree.childAt? 5 .qualifier = some 6 := by decide +kernel
  have link : tree.parent? 5 = some 4 := by decide +kernel
  have inBlock : Fix.isBlockStatement tree 4 := by decide +kernel
  have inside : 5 ∈ tree.preorder := by decide +kernel
  obtain ⟨diagnostic, same, told⟩ := List.map_eq_singleton_iff.mp reported
  obtain ⟨offered, anchor⟩ := Prod.mk.inj told
  refine ⟨diagnostic, same ▸ List.mem_singleton_self diagnostic, offered, ?_, ?_⟩
  · rw [anchor]
    exact coherent.attached_iff.mpr inside
  · rw [Diagnostic.applyFix, offered, anchor]
    exact Fix.introduceVariable_ok coherent rfl receiver (.single link) inBlock

/-- Applied once more, the fix introduces a variable for the variable. -/
theorem chainedCall_changedAgain
    : let tree := Tree.ofDocument chainedCall
      ∃ diagnostic ∈
          (Inspection.inspectTree (Rule.chainedMethodCall true) tree { interactive := true }
            none).reported,
        ∃ after again,
          diagnostic.applyFix.apply tree = (.ok (), after)
          ∧ diagnostic.applyFix.apply after = (.ok (), again)
          ∧ again.toDocument ≠ after.toDocument := by
  intro tree
  obtain ⟨diagnostic, member, offered, attached, after, succeeded⟩ := chainedCall_fixed
  have coherent : tree.Coherent := Tree.ofDocument_coherent chainedCall
  have fixed : (Fix.introduceVariable.applyAt diagnostic.anchor).apply tree = (.ok (), after) := by
    rwa [Diagnostic.applyFix, offered] at succeeded
  obtain ⟨again, repeats⟩ := Fix.introduceVariable_again coherent fixed
  have still := (Fix.introduceVariable_pruned coherent fixed).attached_after coherent attached
    not_false
  refine ⟨diagnostic, member, after, again, succeeded, ?_, ?_⟩
  · rwa [Diagnostic.applyFix, offered]
  · exact Fix.introduceVariable_changes (Fix.coherent_of_applyAt coherent fixed) still repeats

/-- So the fix is not harmless there. -/
theorem chainedCall_notHarmless
    : let tree := Tree.ofDocument chainedCall
      ∃ (diagnostic : Diagnostic) (after : Tree),
        diagnostic.applyFix.apply tree = (.ok (), after)
        ∧ ¬∃ (outcome : Except FixError Unit) (again : Tree),
          diagnostic.applyFix.apply after = (outcome, again)
          ∧ (outcome = .ok () ∨ ∃ id fault, outcome = .error (.shape id fault))
          ∧ again.toDocument = after.toDocument := by
  intro tree
  obtain ⟨diagnostic, _, offered, attached, after, succeeded⟩ := chainedCall_fixed
  have harmless := diagnostic.applyFix_again (.loaded chainedCall) succeeded
  exact ⟨diagnostic, after, succeeded, fun again => harmless.mp again ⟨offered, attached⟩⟩

end TreeLint
