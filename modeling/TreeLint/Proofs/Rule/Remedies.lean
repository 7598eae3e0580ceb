import TreeLint.Proofs.Fix.Places
import TreeLint.Proofs.Fix.Progress
import TreeLint.Proofs.Rule.ClassProblems

/-! Fixes against the rules that offer them. Whenever a rule reports a node with a fix, the node has
the problem that the fix takes away. Main result: once the fix of a report is applied, the rule
reports its node no longer, and no node that it did not report before.
-/

namespace TreeLint

open Relation

-----------------------------------------------------------------------------------------
-- Where fixes are offered
-----------------------------------------------------------------------------------------

/-- A rule about code may report only the diagnostic for what has its problem. -/
theorem Rule.diagnose_of_mayReport {rule : Rule} (code : rule.LooksAtCode) {context : PassContext}
    (linked : context.tree.Linked) {inner : Subtree}
    (shown : context.tree.subtree? inner.id = some inner) {diagnostic : Diagnostic}
    (reports : rule.checker.MayReport context inner diagnostic)
    : ∃ anchor,
        context.tree.subtree? anchor.id = some anchor
        ∧ rule.Flags context.tree anchor
        ∧ diagnostic = rule.diagnose context anchor := by
  obtain ⟨reaction, around, anchor, reacts, reported, rfl⟩ := reports
  rw [reactionFor?_code code] at reacts
  split at reacts
  · cases reacts
    cases reported
  · obtain ⟨report, isReport, rfl⟩ := Option.map_eq_some_iff.mp reacts
    have among : anchor ∈ rule.reportsAt context.tree inner := by
      rw [reportsAt, isReport]
      exact reported
    obtain ⟨flagged, _, anchorShown⟩ := (mem_reportsAt_iff code linked shown).mp among
    exact ⟨anchor, anchorShown, flagged, rfl⟩

/-- What a rule reports with a fix has the problem that the fix is for, by cases on the rule. -/
theorem Rule.mends_of_mayReport {rule : Rule} {context : PassContext}
    (linked : context.tree.Linked) {inner : Subtree}
    (shown : context.tree.subtree? inner.id = some inner) {diagnostic : Diagnostic}
    (reports : rule.checker.MayReport context inner diagnostic) {fix : Fix}
    (offered : rule.profile.fix = some fix)
    : fix.Mends context.tree diagnostic.anchor := by
  have kindOf {node : Subtree} (nodeShown : context.tree.subtree? node.id = some node)
      {kind : NodeKind} (isKind : node.kind = kind)
      : context.tree.kind? node.id = some kind :=
    (Tree.kind?_of_shown nodeShown).trans (congrArg some isKind)
  cases rule with
  | finalMethodInFinalClass =>
      cases offered
      obtain ⟨reaction, around, anchor, reacts, reported, rfl⟩ := reports
      rw [reactionFor?_finalMethod] at reacts
      split at reacts
      · next isMethod =>
          cases reacts
          obtain ⟨rfl, isBoth⟩ := Subtree.mem_selfIf_iff.mp reported
          exact ⟨rfl, ((Tree.finalInFinal_iff shown isMethod).mp isBoth).2.1⟩
      · cases reacts
  | anonymousClassMethodCount =>
      cases offered
      exact True.intro
  | pointlessBitwiseExpression =>
      cases offered
      obtain ⟨anchor, anchorShown, flagged, rfl⟩ :=
        diagnose_of_mayReport .bitwise linked shown reports
      exact kindOf anchorShown flagged.1
  | typeParameterExtendsObject =>
      cases offered
      obtain ⟨reaction, around, anchor, reacts, reported, rfl⟩ := reports
      rw [reactionFor?_typeParameter] at reacts
      split at reacts
      · cases reacts
        rw [Reaction.walkRoot] at reported
        split at reported <;> cases reported
      · split at reacts
        · next isParameter =>
            cases reacts
            have among : anchor ∈ inner.selfIf fun parameter => !parameter.objectBounds.isEmpty :=
              reported
            obtain ⟨rfl, bounded⟩ := Subtree.mem_selfIf_iff.mp among
            refine (Tree.extendsObject_iff linked shown).mp ?_
            rw [Subtree.extendsObject, isParameter, bounded]
            rfl
        · cases reacts
  | chainedMethodCall ignoreFields =>
      cases offered
      obtain ⟨anchor, anchorShown, flagged, rfl⟩ :=
        diagnose_of_mayReport (.chains ignoreFields) linked shown reports
      exact ⟨anchor, anchorShown, flagged.1⟩
  | multipleDeclaration =>
      cases offered
      obtain ⟨anchor, _, flagged, rfl⟩ :=
        diagnose_of_mayReport .declarations linked shown reports
      exact flagged.imp_left fun stands => stands.imp fun _ => And.left
  | literalAsArgToStringEquals =>
      cases offered
      obtain ⟨anchor, anchorShown, flagged, rfl⟩ :=
        diagnose_of_mayReport .comparisons linked shown reports
      exact kindOf anchorShown flagged.1
  | _ => cases offered

namespace Rule

open TreeLint.Tree

/-- After a change the rule reports the anchor no longer, and no node that it did not report. -/
def Remedied (rule : Rule) (tree : Tree) (anchor : NodeId) (after : Tree) : Prop :=
  ∀ id ∈ (rule.anchors after).map Subtree.id,
    id ≠ anchor ∧ id ∈ (rule.anchors tree).map Subtree.id

variable {tree after : Tree} {anchor : NodeId}

-----------------------------------------------------------------------------------------
-- Rules about classes
-----------------------------------------------------------------------------------------

theorem remedied_finalMethod (coherent : tree.Coherent) (afterCoherent : after.Coherent)
    (succeeded : ((Fix.removeModifier .final).applyAt anchor).apply tree = (.ok (), after))
    : Rule.finalMethodInFinalClass.Remedied tree anchor after := by
  obtain rfl := Fix.removeModifier_succeeded succeeded
  intro id listed
  obtain ⟨attached, isMethod, isFinal, parent, up, isClass, classFinal⟩ :=
    (mem_anchors_finalMethod afterCoherent.toLinked).mp listed
  have tidied := tidied_removeModifier tree (fun _ => False) anchor .final
  have wasMethod := tidied.kind?_before (by decide) isMethod
  refine ⟨?_, (mem_anchors_finalMethod coherent.toLinked).mpr ⟨?_, wasMethod,
    tidied.isFinal_before isFinal, parent, ?_, tidied.kind?_before (by decide) isClass,
    tidied.isFinal_before classFinal⟩⟩
  · rintro rfl
    exact removeModifier_not_isFinal tree id isFinal
  · exact (tree.reword_frame anchor _).placesKept.attached_before coherent afterCoherent
      (fun _ isMoved => nomatch isMoved) (lt_size_of_kind? wasMethod) attached
  · rwa [reword_parent?] at up

/-- Another anonymous class has no more methods than before, and the base that it had. -/
theorem crowdedBase_before (linked : tree.Linked) {anonymous : NodeId}
    (named : tree.ClassNamed anonymous after) {limit : Threshold} {other id : NodeId}
    (apart : other ≠ anonymous) (crowded : after.CrowdedBase limit other id)
    : tree.CrowdedBase limit other id := by
  obtain ⟨isAnonymous, exceeded, isBase⟩ := crowded
  obtain ⟨old, wasAnonymous⟩ := named.kind?_before (by decide) isAnonymous
  obtain ⟨added, new, children⟩ : ∃ added : List NodeId,
      (∀ child ∈ added, tree.size ≤ child)
      ∧ after.childIds other = tree.childIds other ++ added := by
    rcases named.children other old apart isAnonymous with same | ⟨inner, new, more⟩
    · exact ⟨[], fun _ member => (nomatch member), same.trans (List.append_nil _).symm⟩
    · exact ⟨[inner], fun child member => List.mem_singleton.mp member ▸ new, more⟩
  have foreign (test : Content → Bool)
      (fails : ∀ content, content.kind ∈ [NodeKind.namedClass, .reference]
        → content.role ∈ [Role.other, .extended] → test content = false)
      : ∀ child ∈ added, ¬(after.content? child).any test := by
    intro child member passes
    obtain ⟨content, known, isSome⟩ := (Option.any_eq_true _ _).mp passes
    obtain ⟨kind, role⟩ := named.newContents child content (new child member) known
    exact absurd ((fails content kind role).symm.trans isSome) (by simp)
  refine ⟨wasAnonymous, ?_, ?_⟩
  · have noMethod := foreign (fun content => content.kind == .method && !content.facts.isConstructor)
      fun content kind _ => by
        rcases List.mem_pair.mp kind with isClass | isReference
        · rw [isClass]; rfl
        · rw [isReference]; rfl
    have fewer : (after.methodsOf other).length ≤ (tree.methodsOf other).length := by
      rw [methodsOf, methodsOf, children, List.filter_append, List.filter_eq_nil_iff.mpr noMethod,
        List.append_nil, ← List.countP_eq_length_filter, ← List.countP_eq_length_filter]
      refine List.countP_mono_left fun child member isMethod => ?_
      obtain ⟨content, before⟩ := content?_exists (linked.child_lt member)
      rcases named.contents child content before with same | ⟨text, erased⟩
      · rwa [same, ← before] at isMethod
      · rw [erased] at isMethod
        cases isMethod
    exact decide_eq_true (Nat.lt_of_lt_of_le (of_decide_eq_true exceeded) fewer)
  · have noBase := foreign (·.role == .baseClass) fun content _ role => by
      rcases List.mem_pair.mp role with isOther | isExtended
      · rw [isOther]; rfl
      · rw [isExtended]; rfl
    rw [childAt?, children, List.find?_append, List.find?_eq_none.mpr noBase, Option.or_none]
      at isBase
    rw [childAt?, ← isBase, ← List.head?_filter, ← List.head?_filter]
    refine congrArg _ (List.filter_congr fun child member => ?_)
    obtain ⟨content, before⟩ := content?_exists (linked.child_lt member)
    rcases named.contents child content before with same | ⟨text, erased⟩
    · rw [same, before]
    · rw [erased, before]
      rfl

theorem remedied_methodCount (coherent : tree.Coherent) {limit : Threshold}
    (reported : anchor ∈ ((Rule.anonymousClassMethodCount limit).anchors tree).map Subtree.id)
    (succeeded : (Fix.nameInnerClass.applyAt anchor).apply tree = (.ok (), after))
    : (Rule.anonymousClassMethodCount limit).Remedied tree anchor after := by
  obtain ⟨anonymous, up, named⟩ := Fix.nameInnerClass_succeeded coherent succeeded
  obtain ⟨owner, ownerAttached, _, _, ownersBase⟩ :=
    (mem_anchors_methodCount coherent.toLinked).mp reported
  have ownerUp := coherent.agree.mp (List.mem_of_find?_eq_some ownersBase)
  obtain rfl := Option.some.inj (up.symm.trans ownerUp)
  have kept : tree.PlacesKept (fun id => tree.parent? id = some anonymous) after :=
    ⟨named.root, fun lower old upper link => (named.links lower old upper link).imp_right And.right⟩
  intro id listed
  obtain ⟨other, attached, crowded⟩ :=
    (mem_anchors_methodCount named.coherent.toLinked).mp listed
  have old := (named.kind?_before (by decide) crowded.1).1
  -- The anonymous class itself hangs nowhere any more.
  have apart : other ≠ anonymous := by
    rintro rfl
    rcases ReflTransGen.cases_tail (named.coherent.mem_preorder_iff.mp attached) with
      same | ⟨upper, _, link⟩
    · rw [named.root] at same
      exact named.hung (same ▸ coherent.rootTop)
    · exact absurd (link.symm.trans named.loose) (by simp)
  have before := crowdedBase_before coherent.toLinked named apart crowded
  refine ⟨?_, (mem_anchors_methodCount coherent.toLinked).mpr ⟨other, ?_, before⟩⟩
  · rintro rfl
    have otherUp := coherent.agree.mp (List.mem_of_find?_eq_some before.2.2)
    exact apart (Option.some.inj (otherUp.symm.trans up))
  · refine kept.attached_before coherent named.coherent (fun moved below => ?_) old attached
    exact coherent.mem_preorder_iff.mpr ((coherent.mem_preorder_iff.mp ownerAttached).tail below)

theorem remedied_typeParameter (coherent : tree.Coherent) (afterCoherent : after.Coherent)
    (isParameter : tree.kind? anchor = some .typeParameter)
    (succeeded : (Fix.removeObjectBound.applyAt anchor).apply tree = (.ok (), after))
    : Rule.typeParameterExtendsObject.Remedied tree anchor after := by
  obtain ⟨parameter, shown, rfl, siblings⟩ :=
    Fix.removeObjectBound_succeeded coherent.toLinked succeeded
  obtain rfl := subtree?_id shown
  have links (lower upper : NodeId)
      (link : (tree.cutAll parameter.id (parameter.objectBounds.map Subtree.id)).parent? lower
        = some upper)
      : lower ∉ parameter.objectBounds.map Subtree.id ∧ tree.parent? lower = some upper := by
    rw [cutAll_parent?] at link
    split at link
    · cases link
    · next kept => exact ⟨kept, link⟩
  have kept : tree.PlacesKept (fun _ => False)
      (tree.cutAll parameter.id (parameter.objectBounds.map Subtree.id)) :=
    ⟨cutAll_root .., fun lower _ upper link => Or.inl (links lower upper link).2⟩
  have kinds (id : NodeId)
      : (tree.cutAll parameter.id (parameter.objectBounds.map Subtree.id)).kind? id
        = tree.kind? id := by
    rw [kind?, kind?, cutAll_content?]
  have classes (id : NodeId)
      : (tree.cutAll parameter.id (parameter.objectBounds.map Subtree.id)).isClassAt id
        = tree.isClassAt id := by
    rw [isClassAt, isClassAt, kinds]
  intro id listed
  obtain ⟨⟨owner, attached, isClass, child, up, way⟩, isKind, bound, content, link, known, named⟩ :=
    (mem_anchors_typeParameter afterCoherent).mp listed
  rw [kinds] at isKind
  rw [cutAll_content?] at known
  rw [classes] at isClass
  obtain ⟨stays, linkBefore⟩ := links bound id link
  have upBefore := (links child owner up).2
  refine ⟨?_, (mem_anchors_typeParameter coherent).mpr ⟨⟨owner, ?_, isClass, child, upBefore, ?_⟩,
    isKind, bound, content, linkBefore, known, named⟩⟩
  · rintro rfl
    exact stays ((mem_objectBounds_ids shown).mpr
      ⟨coherent.agree.mpr linkBefore, content, known, named⟩)
  · exact kept.attached_before coherent afterCoherent (fun _ => False.elim)
      (coherent.parent_lt upBefore) attached
  · exact kept.way_before coherent.toLinked (fun id isClass => (classes id).trans isClass)
      (lt_size_of_kind? isKind) way

-----------------------------------------------------------------------------------------
-- Rules about code
-----------------------------------------------------------------------------------------

/-- A rule about code is remedied if nodes keep their places, except for moved ones in the code of
attached members, and what has a problem had it before and is not the anchor.
-/
theorem remedied_code {rule : Rule} (code : rule.LooksAtCode) (coherent : tree.Coherent)
    (afterCoherent : after.Coherent) {moved : NodeId → Prop} (kept : tree.PlacesKept moved after)
    (members : ∀ id, after.isMemberAt id → tree.isMemberAt id)
    (classes : ∀ id, tree.isClassAt id → after.isClassAt id)
    (places : ∀ id, moved id → id ∈ tree.preorder ∧ tree.InMember id)
    (flags
      : ∀ now,
          after.subtree? now.id = some now
          → rule.Flags after now
          → now.id ≠ anchor
            ∧ ∃ before,
                tree.subtree? before.id = some before
                ∧ before.id = now.id
                ∧ rule.Flags tree before)
    : rule.Remedied tree anchor after := by
  intro id listed
  obtain ⟨attached, inMember, now, shown, flagged⟩ := (mem_anchors_code code afterCoherent).mp listed
  obtain rfl := subtree?_id shown
  obtain ⟨apart, before, beforeShown, same, wasFlagged⟩ := flags now shown flagged
  rw [same] at beforeShown
  have old : now.id < tree.size := by
    obtain ⟨node, here, _⟩ := subtree?_eq_some beforeShown
    exact Nat.lt_of_not_le fun new => absurd (here.symm.trans (node?_eq_none_iff.mpr new)) (by simp)
  refine ⟨apart, (mem_anchors_code code coherent).mpr ⟨?_, ?_, before, beforeShown, wasFlagged⟩⟩
  · exact kept.attached_before coherent afterCoherent (fun id isMoved => (places id isMoved).1) old
      attached
  · exact kept.inMember_before coherent.toLinked members classes
      (fun id isMoved => (places id isMoved).2) old inMember

/-- Text in the place of an expression remedies a rule about code, if what has a problem beside it
had it before and is not the anchor.
-/
theorem remedied_fragment {rule : Rule} (code : rule.LooksAtCode) (coherent : tree.Coherent)
    {text : String} {kind : NodeKind} (isKind : tree.kind? anchor = some kind)
    (plain : kind.isClass = false)
    (flags
      : ∀ found now : Subtree,
          tree.subtree? found.id = some found
          → (tree.fragment anchor text).subtree? now.id = some now
          → now.id = found.id
          → rule.Flags (tree.fragment anchor text) now
          → found.id ≠ anchor ∧ rule.Flags tree found)
    : rule.Remedied tree anchor (tree.fragment anchor text) := by
  have kept : tree.PlacesKept (fun _ => False) (tree.fragment anchor text) := by
    refine ⟨fragment_root .., fun lower _ upper link => Or.inl ?_⟩
    rw [fragment_parent?] at link
    split at link
    · cases link
    · exact link
  refine remedied_code code coherent (coherent.fragment anchor text) kept ?_ ?_
    (fun _ => False.elim) ?_
  · intro id isMember
    obtain ⟨now, isNow, among⟩ := (Option.any_eq_true _ _).mp isMember
    refine (Option.any_eq_true _ _).mpr ⟨now, (fragment_kind?_before ?_ isNow).2, among⟩
    rintro rfl
    exact absurd among (by decide)
  · intro id isClass
    have apart : id ≠ anchor := by
      rintro rfl
      rw [isClassAt, isKind, Option.any_some, plain] at isClass
      cases isClass
    rwa [isClassAt, Tree.kind?, fragment_content?, if_neg apart]
  · intro now nowShown flagged
    have old : now.id < tree.size := by
      have present := lt_size_of_kind? (kind?_of_shown nowShown)
      rwa [fragment_size] at present
    obtain ⟨found, shown⟩ := coherent.subtree?_exists old
    have same := subtree?_id shown
    rw [← same] at shown
    obtain ⟨apart, wasFlagged⟩ := flags found now shown nowShown same.symm flagged
    exact ⟨same ▸ apart, found, shown, same, wasFlagged⟩

theorem remedied_bitwise (coherent : tree.Coherent)
    (isOperation : tree.kind? anchor = some .binaryExpression)
    (succeeded : (Fix.simplify.applyAt anchor).apply tree = (.ok (), after))
    : Rule.pointlessBitwiseExpression.Remedied tree anchor after := by
  obtain ⟨_, text, _, _, rfl⟩ := Fix.replaceAt_succeeded succeeded
  refine remedied_fragment .bitwise coherent isOperation rfl fun found now shown nowShown same => ?_
  rintro ⟨isKind, operation, isOperation, pointless⟩
  obtain ⟨apart, before⟩ := fragment_pointless_before shown nowShown same isOperation pointless
  refine ⟨apart, ?_, before⟩
  exact fragment_kind_before shown nowShown same (by decide) isKind

theorem remedied_comparison (coherent : tree.Coherent)
    (isCall : tree.kind? anchor = some .methodCall)
    (succeeded : (Fix.flipEquals.applyAt anchor).apply tree = (.ok (), after))
    : Rule.literalAsArgToStringEquals.Remedied tree anchor after := by
  obtain ⟨_, text, _, _, rfl⟩ := Fix.replaceAt_succeeded succeeded
  refine remedied_fragment .comparisons coherent isCall rfl fun found now shown nowShown same => ?_
  rintro ⟨isKind, comparison, compares⟩
  obtain ⟨apart, before⟩ := fragment_comparison_before isCall shown nowShown same compares
  refine ⟨apart, ?_, before⟩
  exact fragment_kind_before shown nowShown same (by decide) isKind

/-- The siblings of a local variable in a member are in the member as well. -/
theorem inMember_of_declaresTogether {statement id : NodeId}
    (together : tree.DeclaresTogether statement id)
    (anchorTogether : tree.DeclaresTogether statement anchor) (inside : tree.InMember anchor)
    : tree.InMember id := by
  obtain ⟨top, isMember, way⟩ := inside
  rcases ReflTransGen.cases_tail way with rfl | ⟨parent, above, last⟩
  · rw [isMemberAt, anchorTogether.2.1] at isMember
    cases isMember
  · cases last.1.symm.trans anchorTogether.2.2
    exact ⟨top, isMember, above.tail ⟨together.2.2, last.2⟩⟩

theorem remedied_declarations (coherent : tree.Coherent)
    (problem : tree.HasProblem Rule.multipleDeclaration anchor)
    (succeeded : (Fix.splitDeclaration.applyAt anchor).apply tree = (.ok (), after))
    : Rule.multipleDeclaration.Remedied tree anchor after := by
  obtain ⟨moved, apart, siblings, alone, typed⟩ := Fix.splitDeclaration_succeeded coherent succeeded
  have tidied := apart.tidied
  refine remedied_code .declarations coherent apart.coherent apart.frame.placesKept
    tidied.isMemberAt_before tidied.isClassAt_kept ?_ ?_
  · intro id isMoved
    obtain ⟨statement, together, anchorTogether⟩ := siblings id isMoved
    refine ⟨?_, inMember_of_declaresTogether together anchorTogether problem.2.1⟩
    have above := coherent.attached_of_below problem.1 (.single anchorTogether.2.2)
    exact coherent.mem_preorder_iff.mpr
      ((coherent.mem_preorder_iff.mp above).tail together.2.2)
  · intro now _ flagged
    have known {kind : NodeKind} (isKind : tree.kind? now.id = some kind)
        : ∃ before, tree.subtree? before.id = some before ∧ before.id = now.id := by
      obtain ⟨before, shown⟩ := coherent.subtree?_exists (lt_size_of_kind? isKind)
      have same := subtree?_id shown
      exact ⟨before, same ▸ shown, same⟩
    rcases flagged with ⟨declaration, behind, outside⟩ | bare
    · have behindBefore := tidied.standsBehind_before behind
      obtain ⟨before, shown, same⟩ := known behindBefore.2.1
      refine ⟨fun here => alone declaration (here ▸ behind), before, shown, same,
        Or.inl ⟨declaration, same ▸ behindBefore, fun starts => outside ?_⟩⟩
      -- A declaration at the start of a loop is still there: only variables are moved.
      have old := lt_size_of_kind? behindBefore.1
      have still : declaration ∉ moved := by
        intro isMoved
        obtain ⟨_, together, _⟩ := siblings declaration isMoved
        cases together.2.1.symm.trans behindBefore.1
      obtain ⟨⟨content, there, init⟩, loop, up, isLoop⟩ := starts
      refine ⟨⟨content, (apart.contents declaration old).trans there, init⟩, loop,
        (apart.frame.parents declaration old still).trans up, tidied.kind?_kept isLoop⟩
    · have bareBefore := tidied.bareField_before bare
      obtain ⟨before, shown, same⟩ := known bareBefore.1
      exact ⟨fun here => typed (here ▸ bare), before, shown, same, Or.inr (same ▸ bareBefore)⟩

/-- What is below a field is so when the receiver of a call that is below none is moved, by
induction on the way from the field.
-/
theorem belowField_kept {receiver : NodeId} (up : tree.parent? receiver = some anchor)
    (isCall : tree.kind? anchor = some .methodCall) (outside : ¬tree.BelowField anchor)
    (parents : ∀ id < tree.size, id ≠ receiver → after.parent? id = tree.parent? id)
    (fields : ∀ id, tree.kind? id = some .field → after.kind? id = some .field) {id : NodeId}
    (below : tree.BelowField id)
    : after.BelowField id := by
  obtain ⟨field, above, isField⟩ := below
  refine ⟨field, ?_, fields field isField⟩
  have still {upper lower : NodeId} (link : tree.parent? lower = some upper) (other : upper ≠ anchor)
      : after.parent? lower = some upper := by
    rw [parents lower (lt_size_of_parent? link) fun same => other ?_, link]
    exact Option.some.inj (link.symm.trans (same ▸ up))
  induction above with
  | single link =>
      refine .single (still link ?_)
      rintro rfl
      cases isCall.symm.trans isField
  | tail higher link ih =>
      refine ih.tail (still link ?_)
      rintro rfl
      exact outside ⟨field, higher, isField⟩

theorem remedied_chains (coherent : tree.Coherent) (afterCoherent : after.Coherent)
    {ignoreFields : Bool}
    (problem : tree.HasProblem (Rule.chainedMethodCall ignoreFields) anchor)
    (succeeded : (Fix.introduceVariable.applyAt anchor).apply tree = (.ok (), after))
    : (Rule.chainedMethodCall ignoreFields).Remedied tree anchor after := by
  obtain ⟨attached, inMember, call, callShown, calls, considered⟩ := problem
  obtain rfl := subtree?_id callShown
  have linked := coherent.toLinked
  have isCall : tree.kind? call.id = some .methodCall :=
    (kind?_of_shown callShown).trans (congrArg some calls.1)
  obtain ⟨tidied, gone⟩ := Fix.introduceVariable_tidies coherent
    ⟨_, List.mem_cons_self, isCall⟩ succeeded
  obtain ⟨receiver, _, _, _, _, introduces, same⟩ :=
    Fix.introduceVariable_succeeded coherent succeeded
  have up := introduces.below linked
  have parents (id : NodeId) (old : id < tree.size) (other : id ≠ receiver)
      : after.parent? id = tree.parent? id := by
    rw [same, introduces.parent? linked old, if_neg other]
  have kept : tree.PlacesKept (· = receiver) after := by
    refine ⟨same ▸ withVariable_root, fun lower old upper link => ?_⟩
    by_cases isReceiver : lower = receiver
    · exact Or.inr isReceiver
    · exact Or.inl ((parents lower old isReceiver).symm.trans link)
  refine remedied_code (.chains ignoreFields) coherent afterCoherent kept tidied.isMemberAt_before
    tidied.isClassAt_kept ?_ ?_
  · rintro _ rfl
    obtain ⟨top, isMember, way⟩ := inMember
    refine ⟨coherent.mem_preorder_iff.mpr ((coherent.mem_preorder_iff.mp attached).tail up), top,
      isMember, way.tail ⟨up, ?_⟩⟩
    rw [isClassAt, isCall]
    rfl
  · intro now nowShown flagged
    have chained : after.CallsResult now.id := ⟨now, nowShown, flagged.1⟩
    have apart : now.id ≠ call.id := fun here => gone (here ▸ chained)
    obtain ⟨before, shown, chainedBefore⟩ := tidied.callsResult_before linked apart chained
    have number := subtree?_id shown
    refine ⟨apart, before, number ▸ shown, number, chainedBefore, ?_⟩
    rintro ⟨ignores, below⟩
    refine flagged.2 ⟨ignores, belowField_kept up isCall
      (fun outside => considered ⟨ignores, outside⟩) parents (fun _ => tidied.kind?_kept) ?_⟩
    exact number ▸ below

-----------------------------------------------------------------------------------------
-- All rules
-----------------------------------------------------------------------------------------

/-- Every fix remedies the rule that offers it where it is offered, by cases on the rule. -/
theorem remedied_of_reported {rule : Rule} (coherent : tree.Coherent)
    (reported : anchor ∈ (rule.anchors tree).map Subtree.id) {fix : Fix}
    (offered : rule.profile.fix = some fix)
    (succeeded : (fix.applyAt anchor).apply tree = (.ok (), after))
    : rule.Remedied tree anchor after := by
  have afterCoherent := Fix.coherent_of_applyAt coherent succeeded
  have problem (code : rule.LooksAtCode) : tree.HasProblem rule anchor :=
    (mem_anchors_code code coherent).mp reported
  have kindOf (code : rule.LooksAtCode) {kind : NodeKind}
      (isKind : ∀ node, rule.Flags tree node → node.kind = kind)
      : tree.kind? anchor = some kind := by
    obtain ⟨_, _, node, shown, flagged⟩ := problem code
    obtain rfl := subtree?_id shown
    exact (kind?_of_shown shown).trans (congrArg some (isKind node flagged))
  cases rule with
  | finalMethodInFinalClass =>
      cases offered
      exact remedied_finalMethod coherent afterCoherent succeeded
  | anonymousClassMethodCount limit =>
      cases offered
      exact remedied_methodCount coherent reported succeeded
  | pointlessBitwiseExpression =>
      cases offered
      exact remedied_bitwise coherent (kindOf .bitwise fun _ flagged => flagged.1) succeeded
  | typeParameterExtendsObject =>
      cases offered
      exact remedied_typeParameter coherent afterCoherent
        ((mem_anchors_typeParameter coherent).mp reported).2.1 succeeded
  | chainedMethodCall ignoreFields =>
      cases offered
      exact remedied_chains coherent afterCoherent (problem (.chains ignoreFields)) succeeded
  | multipleDeclaration =>
      cases offered
      exact remedied_declarations coherent (problem .declarations) succeeded
  | literalAsArgToStringEquals =>
      cases offered
      exact remedied_comparison coherent (kindOf .comparisons fun _ flagged => flagged.1) succeeded
  | _ => cases offered

/-- Once the fix of a diagnostic of a rule is applied, a run of the rule that nobody stops reports
the node no longer, and every node that it reports was reported before, whatever the options of
either run.
-/
theorem applyFix_remedies {rule : Rule} (reachable : tree.Reachable)
    {options laterOptions : PassOptions} {flag laterFlag : Option CancelFlag}
    (idle : ∀ held ∈ flag, held = { }) (laterIdle : ∀ held ∈ laterFlag, held = { })
    {diagnostic : Diagnostic}
    (reported : diagnostic ∈ (Inspection.inspectTree rule tree options flag).reported)
    (succeeded : diagnostic.applyFix.apply tree = (.ok (), after))
    : ∀ later ∈ (Inspection.inspectTree rule after laterOptions laterFlag).reported,
        later.anchor ≠ diagnostic.anchor
        ∧ ∃ earlier ∈ (Inspection.inspectTree rule tree options flag).reported,
            earlier.anchor = later.anchor := by
  have coherent := reachable.coherent
  have anchors := rule.inspectTree_anchors coherent.toLinked options idle
  rw [Diagnostic.applyFix] at succeeded
  cases offered : diagnostic.fix with
  | none =>
      rw [offered] at succeeded
      exact absurd succeeded Edit.failed_ne_succeeded
  | some fix =>
      rw [offered] at succeeded
      have fromRule : rule.profile.fix = some fix := by
        obtain ⟨scope, _, anchor, _, rfl⟩ :=
          (rule.mem_inspectTree_iff coherent.toLinked idle).mp reported
        rw [diagnose, Profile.diagnose] at offered
        dsimp only at offered
        split at offered
        · cases offered
        · exact offered
      have afterCoherent := Fix.coherent_of_applyAt coherent succeeded
      have listed := List.mem_map_of_mem (f := (·.anchor)) reported
      rw [anchors] at listed
      have remedied := remedied_of_reported coherent listed fromRule succeeded
      intro later member
      have laterListed := List.mem_map_of_mem (f := (·.anchor)) member
      rw [rule.inspectTree_anchors afterCoherent.toLinked laterOptions laterIdle] at laterListed
      obtain ⟨apart, before⟩ := remedied later.anchor laterListed
      rw [← anchors] at before
      obtain ⟨earlier, among, same⟩ := List.mem_map.mp before
      exact ⟨apart, earlier, among, same⟩

end Rule

/-- What the rule about shared declarations reports about a tree. -/
def sharedDeclarations (tree : Tree) : List Diagnostic :=
  (Inspection.inspectTree Rule.multipleDeclaration tree { } (some { })).reported

/-- The tree with the second of the declarations on its own. -/
def separateDeclarations : Tree :=
  ((Fix.splitDeclaration.applyAt 10).apply (Tree.ofDocument nestedDeclarations)).2

/-- Splitting the declaration takes the report of the second variable away, and leaves at most that
of the field inside the first one.
-/
theorem nestedDeclarations_remedied
    : ∃ diagnostic ∈ sharedDeclarations (Tree.ofDocument nestedDeclarations),
        diagnostic.anchor = 10
        ∧ diagnostic.applyFix.apply (Tree.ofDocument nestedDeclarations)
          = (.ok (), separateDeclarations)
        ∧ ∀ later ∈ sharedDeclarations separateDeclarations,
            later.anchor ≠ diagnostic.anchor
            ∧ ∃ earlier ∈ sharedDeclarations (Tree.ofDocument nestedDeclarations),
                earlier.anchor = later.anchor := by
  have offers : (10, some Fix.splitDeclaration)
      ∈ (sharedDeclarations (Tree.ofDocument nestedDeclarations)).map fun diagnostic =>
          (diagnostic.anchor, diagnostic.fix) := by decide
  obtain ⟨diagnostic, reported, same⟩ := List.mem_map.mp offers
  obtain ⟨anchor, fix⟩ := Prod.mk.inj same
  have succeeded : diagnostic.applyFix.apply (Tree.ofDocument nestedDeclarations)
      = (.ok (), separateDeclarations) := by
    rw [Diagnostic.applyFix, fix, anchor]
    exact Prod.ext rfl rfl
  have idle : ∀ held ∈ some ({ } : CancelFlag), held = { } :=
    fun held same => (Option.some.inj same).symm
  exact ⟨diagnostic, reported, anchor, succeeded,
    Rule.applyFix_remedies (.loaded nestedDeclarations) idle idle reported succeeded⟩

end TreeLint
