import TreeLint.Proofs.Fix.Declarations
import TreeLint.Proofs.Fix.InnerClasses
import TreeLint.Proofs.Fix.Measure
import TreeLint.Proofs.Fix.Removals
import TreeLint.Proofs.Fix.Replacements
import TreeLint.Proofs.Fix.Variables

/-! Fixes against the burden of a tree. A fix that succeeds where it was offered lightens the
burden. A fix that succeeds later, on a tree that other fixes have changed, does not add to it, as
long as its anchor is of the kind that it was offered for.
-/

namespace TreeLint

-----------------------------------------------------------------------------------------
-- Nodes while a tree is fixed
-----------------------------------------------------------------------------------------

/-- Text stands in the place of the node. -/
def Content.Erased (content : Content) : Prop :=
  content.kind = .fragment ∧ content.facts = { } ∧ content.name = none

theorem Content.asText_erased (content : Content) (text : String) : (content.asText text).Erased :=
  ⟨rfl, rfl, rfl⟩

/-- What a node says now, against what it said before: text may stand in its place. -/
def Content.Ages (now before : Content) : Prop :=
  now.kind = before.kind ∧ now.facts = before.facts ∧ now.name = before.name ∨ now.Erased

theorem Content.Tidies.ages {now before : Content} (tidies : now.Tidies before)
    : now.Ages before :=
  Or.inl ⟨tidies.kind, tidies.facts, tidies.name⟩

namespace Tree

/-- Nodes of the first tree are in the second, with text in the place of some of them. -/
def AgesTo (tree after : Tree) : Prop :=
  ∀ id content,
    tree.content? id = some content → ∃ now, after.content? id = some now ∧ now.Ages content

/-- The node is of the kind, or text stands in its place. -/
def WasOf (tree : Tree) (kind : NodeKind) (id : NodeId) : Prop :=
  ∃ content, tree.content? id = some content ∧ (content.kind = kind ∨ content.Erased)

theorem WasOf.later {tree after : Tree} {kind : NodeKind} {id : NodeId}
    (wasOf : tree.WasOf kind id) (ages : tree.AgesTo after)
    : after.WasOf kind id := by
  obtain ⟨content, before, position⟩ := wasOf
  obtain ⟨now, known, stays | erased⟩ := ages id content before
  · refine ⟨now, known, position.imp (stays.1.trans ·) fun erased => ?_⟩
    exact ⟨stays.1.trans erased.1, stays.2.1.trans erased.2.1, stays.2.2.trans erased.2.2⟩
  · exact ⟨now, known, Or.inr erased⟩

theorem WasOf.kind? {tree : Tree} {kind : NodeKind} {id : NodeId} (wasOf : tree.WasOf kind id)
    : tree.kind? id = some kind ∨ tree.kind? id = some .fragment := by
  obtain ⟨content, known, rfl | erased⟩ := wasOf
  · exact Or.inl (kind?_eq_some_iff.mpr ⟨content, known, rfl⟩)
  · exact Or.inr (kind?_eq_some_iff.mpr ⟨content, known, erased.1⟩)

theorem Tidied.agesTo {tree after : Tree} {spared : NodeId → Prop}
    (tidied : tree.Tidied spared after)
    : tree.AgesTo after := by
  intro id content before
  obtain ⟨now, known, tidies⟩ := tidied.contents id content before
  exact ⟨now, known, tidies.ages⟩

theorem ClassNamed.agesTo {tree after : Tree} {anonymous : NodeId}
    (named : tree.ClassNamed anonymous after)
    : tree.AgesTo after := by
  intro id content before
  rcases named.contents id content before with same | ⟨text, erased⟩
  · exact ⟨content, same, Or.inl ⟨rfl, rfl, rfl⟩⟩
  · exact ⟨_, erased, Or.inr (content.asText_erased text)⟩

theorem fragment_agesTo (tree : Tree) (anchor : NodeId) (text : String)
    : tree.AgesTo (tree.fragment anchor text) := by
  intro id content before
  rw [fragment_content?, before]
  split
  · exact ⟨_, rfl, Or.inr (content.asText_erased text)⟩
  · exact ⟨content, rfl, Or.inl ⟨rfl, rfl, rfl⟩⟩

theorem CallsResult.kind? {tree : Tree} {id : NodeId} (calls : tree.CallsResult id)
    : tree.kind? id = some .methodCall := by
  obtain ⟨call, shown, isCall, _⟩ := calls
  obtain rfl := subtree?_id shown
  exact (kind?_of_shown shown).trans (congrArg some isCall)

-----------------------------------------------------------------------------------------
-- Losing expressions and classes
-----------------------------------------------------------------------------------------

/-- Text in the place of an expression lightens the burden. -/
theorem fragment_burden_lt {tree : Tree} {anchor : NodeId} {text : String}
    (expression
      : tree.kind? anchor = some .binaryExpression ∨ tree.kind? anchor = some .methodCall)
    : (tree.fragment anchor text).burden < tree.burden := by
  have was : tree.IsBulky anchor := expression.elim Or.inl fun isCall => Or.inr (Or.inl isCall)
  refine burden_lt_of_bulk (fun id bulky => ?_) was ?_
  · rcases bulky with isKind | isKind | ⟨isKind, hung⟩
    · exact Or.inl (fragment_kind?_before (by decide) isKind).2
    · exact Or.inr (Or.inl (fragment_kind?_before (by decide) isKind).2)
    · refine Or.inr (Or.inr ⟨(fragment_kind?_before (by decide) isKind).2, fun top => hung ?_⟩)
      rw [fragment_parent?, top, ite_self]
  · rintro (isKind | isKind | ⟨isKind, _⟩) <;>
      exact (fragment_kind?_before (by decide) isKind).1 rfl

/-- A name for an anonymous class lightens the burden: the class hangs nowhere then. -/
theorem ClassNamed.burden_lt {tree after : Tree} {anonymous : NodeId}
    (named : tree.ClassNamed anonymous after)
    : after.burden < tree.burden := by
  refine burden_lt_of_bulk (fun id bulky => ?_)
    (Or.inr (Or.inr ⟨named.isAnonymous, named.hung⟩)) ?_
  · rcases bulky with isKind | isKind | ⟨isKind, hung⟩
    · exact Or.inl (named.kind?_before (by decide) isKind).2
    · exact Or.inr (Or.inl (named.kind?_before (by decide) isKind).2)
    · obtain ⟨old, wasKind⟩ := named.kind?_before (by decide) isKind
      refine Or.inr (Or.inr ⟨wasKind, fun top => ?_⟩)
      obtain ⟨upper, up⟩ := Option.ne_none_iff_exists'.mp hung
      rcases named.links id old upper up with same | ⟨_, inside⟩
      · cases top.symm.trans same
      · cases top.symm.trans inside
  · rintro (isKind | isKind | ⟨_, hung⟩)
    · cases named.isAnonymous.symm.trans (named.kind?_before (by decide) isKind).2
    · cases named.isAnonymous.symm.trans (named.kind?_before (by decide) isKind).2
    · exact hung named.loose

end Tree

namespace Fix

open TreeLint.Tree

-----------------------------------------------------------------------------------------
-- Fixes that were offered earlier
-----------------------------------------------------------------------------------------

/-- The kind of nodes that a fix is offered for, if it matters to it later. -/
def target? : Fix → Option NodeKind
  | .introduceVariable | .flipEquals => some .methodCall
  | .simplify => some .binaryExpression
  | .removeObjectBound => some .typeParameter
  | _ => none

/-- The fix may have been offered for the node on an earlier tree. -/
structure Fits (tree : Tree) (fix : Fix) (anchor : NodeId) : Prop where
  builtIn : ∀ name, fix ≠ .rename name
  wasOf : ∀ kind ∈ fix.target?, tree.WasOf kind anchor

theorem Fits.later {tree after : Tree} {fix : Fix} {anchor : NodeId}
    (fits : fix.Fits tree anchor) (ages : tree.AgesTo after)
    : fix.Fits after anchor :=
  ⟨fits.builtIn, fun kind member => (fits.wasOf kind member).later ages⟩

/-- No call has been spared when none is. -/
private theorem none_spared {after : Tree} (id : NodeId) (spared : False) : ¬after.CallsResult id :=
  spared.elim

/-- The bounds of what was a type parameter can be cut off, tidying the tree. -/
theorem tidied_removeObjectBound {tree : Tree} {anchor : NodeId} {ids : List NodeId}
    (wasOf : tree.WasOf .typeParameter anchor) (siblings : tree.Siblings anchor ids)
    : tree.Tidied (fun _ => False) (tree.cutAll anchor ids) := by
  have foreign {kind : NodeKind} (other : kind ∉ [NodeKind.typeParameter, .fragment])
      : tree.kind? anchor ≠ some kind := by
    intro isKind
    rcases wasOf.kind? with isParameter | isText
    · cases isParameter.symm.trans isKind
      exact other List.mem_cons_self
    · cases isText.symm.trans isKind
      exact other (List.mem_cons_of_mem _ List.mem_cons_self)
  exact tidied_cutAll siblings.below (foreign (by decide)) (foreign (by decide))
    (foreign (by decide))

/-- A fix that was offered earlier does not add to the burden of a tree, by cases on the fix. -/
theorem Fits.settles {tree after : Tree} (coherent : tree.Coherent) {fix : Fix} {anchor : NodeId}
    (fits : fix.Fits tree anchor)
    (succeeded : (fix.applyAt anchor).apply tree = (.ok (), after))
    : tree.AgesTo after ∧ after.burden ≤ tree.burden := by
  have tidy (tidied : tree.Tidied (fun _ => False) after)
      : tree.AgesTo after ∧ after.burden ≤ tree.burden :=
    ⟨tidied.agesTo, tidied.burden_le coherent.toLinked none_spared⟩
  have wasOf {kind : NodeKind} (isTarget : fix.target? = some kind) := fits.wasOf kind isTarget
  cases fix with
  | removeModifier modifier =>
      rw [removeModifier_succeeded succeeded] at tidy ⊢
      exact tidy (tidied_removeModifier tree _ anchor modifier)
  | nameInnerClass =>
      obtain ⟨_, _, named⟩ := nameInnerClass_succeeded coherent succeeded
      exact ⟨named.agesTo, named.burden_lt.le⟩
  | splitDeclaration =>
      obtain ⟨_, apart, _⟩ := splitDeclaration_succeeded coherent succeeded
      exact tidy apart.tidied
  | introduceVariable =>
      have isCall : ∃ kind ∈ [NodeKind.methodCall, .fragment], tree.kind? anchor = some kind := by
        rcases (wasOf rfl).kind? with isCall | isText
        · exact ⟨_, List.mem_cons_self, isCall⟩
        · exact ⟨_, List.mem_cons_of_mem _ List.mem_cons_self, isText⟩
      obtain ⟨tidied, gone⟩ := introduceVariable_tidies coherent isCall succeeded
      exact ⟨tidied.agesTo, tidied.burden_le coherent.toLinked fun id same => same ▸ gone⟩
  | simplify =>
      obtain ⟨found, text, shown, isText, rfl⟩ := replaceAt_succeeded succeeded
      obtain rfl := subtree?_id shown
      obtain ⟨operation, isPointless, _⟩ := Option.map_eq_some_iff.mp isText
      obtain ⟨isOperator, _⟩ := BitwiseOperation.ofExpression?_eq_some_iff.mp
        (Option.filter_eq_some_iff.mp isPointless).1
      obtain ⟨content, known, isKind | erased⟩ := wasOf rfl
      · exact ⟨fragment_agesTo tree _ text, (fragment_burden_lt
          (Or.inl (kind?_eq_some_iff.mpr ⟨content, known, isKind⟩))).le⟩
      · cases known.symm.trans (content?_of_shown shown)
        rw [Subtree.facts, erased.2.1] at isOperator
        cases isOperator
  | removeObjectBound =>
      obtain ⟨_, _, rfl, siblings⟩ := removeObjectBound_succeeded coherent.toLinked succeeded
      exact tidy (tidied_removeObjectBound (wasOf rfl) siblings)
  | flipEquals =>
      obtain ⟨found, text, shown, isText, rfl⟩ := replaceAt_succeeded succeeded
      obtain rfl := subtree?_id shown
      obtain ⟨comparison, compares, _⟩ := Option.map_eq_some_iff.mp isText
      obtain ⟨named, _⟩ := LiteralComparison.ofCall?_eq_some_iff.mp compares
      obtain ⟨content, known, isKind | erased⟩ := wasOf rfl
      · exact ⟨fragment_agesTo tree _ text, (fragment_burden_lt
          (Or.inr (kind?_eq_some_iff.mpr ⟨content, known, isKind⟩))).le⟩
      · cases known.symm.trans (content?_of_shown shown)
        rw [Subtree.name?, erased.2.2] at named
        cases named
  | rename name => exact absurd rfl (fits.builtIn name)

-----------------------------------------------------------------------------------------
-- Fixes that are offered now
-----------------------------------------------------------------------------------------

/-- The node has the problem that the fix is for. -/
def Mends (tree : Tree) (anchor : NodeId) : Fix → Prop
  | .removeModifier modifier => modifier = .final ∧ tree.IsFinal anchor
  | .nameInnerClass => True
  | .splitDeclaration =>
      (∃ declaration, tree.StandsBehind declaration anchor) ∨ tree.BareField anchor
  | .introduceVariable => tree.CallsResult anchor
  | .simplify => tree.kind? anchor = some .binaryExpression
  | .removeObjectBound =>
      tree.kind? anchor = some .typeParameter
      ∧ ∃ bound content,
          tree.parent? bound = some anchor
          ∧ tree.content? bound = some content
          ∧ content.NamesObject
  | .flipEquals => tree.kind? anchor = some .methodCall
  | .rename _ => False

theorem Mends.fits {tree : Tree} {fix : Fix} {anchor : NodeId} (mends : fix.Mends tree anchor)
    : fix.Fits tree anchor := by
  have wasOf {kind : NodeKind} (isKind : tree.kind? anchor = some kind) : tree.WasOf kind anchor := by
    obtain ⟨content, known, same⟩ := kind?_eq_some_iff.mp isKind
    exact ⟨content, known, Or.inl same⟩
  refine ⟨?_, fun kind isTarget => wasOf ?_⟩
  · rintro name rfl
    exact mends
  · cases fix <;> cases isTarget
    · exact CallsResult.kind? mends
    · exact mends
    · exact mends.1
    · exact mends

/-- A fix that is offered for a problem of the tree lightens its burden, by cases on the fix. -/
theorem Mends.improves {tree after : Tree} (coherent : tree.Coherent) {fix : Fix}
    {anchor : NodeId} (mends : fix.Mends tree anchor)
    (succeeded : (fix.applyAt anchor).apply tree = (.ok (), after))
    : after.burden < tree.burden := by
  have linked := coherent.toLinked
  have fits := mends.fits
  cases fix with
  | removeModifier modifier =>
      obtain ⟨rfl, isFinal⟩ := mends
      rw [removeModifier_succeeded succeeded]
      exact (tidied_removeModifier tree _ anchor .final).burden_lt linked none_spared .finalModifier
        isFinal (removeModifier_not_isFinal tree anchor)
  | nameInnerClass =>
      obtain ⟨_, _, named⟩ := nameInnerClass_succeeded coherent succeeded
      exact named.burden_lt
  | splitDeclaration =>
      obtain ⟨_, apart, _, alone, typed⟩ := splitDeclaration_succeeded coherent succeeded
      rcases mends with behind | bare
      · exact apart.tidied.burden_lt linked none_spared .sharedDeclaration behind
          fun ⟨declaration, still⟩ => alone declaration still
      · exact apart.tidied.burden_lt linked none_spared .missingType bare typed
  | introduceVariable =>
      obtain ⟨tidied, gone⟩ := introduceVariable_tidies coherent
        ⟨_, List.mem_cons_self, CallsResult.kind? mends⟩ succeeded
      exact tidied.burden_lt linked (fun id same => same ▸ gone) .chainedCall mends gone
  | simplify =>
      obtain ⟨_, text, _, _, rfl⟩ := replaceAt_succeeded succeeded
      exact fragment_burden_lt (Or.inl mends)
  | removeObjectBound =>
      obtain ⟨isParameter, bound, content, up, known, named⟩ := mends
      obtain ⟨parameter, shown, rfl, siblings⟩ := removeObjectBound_succeeded linked succeeded
      obtain rfl := subtree?_id shown
      have cut := (mem_objectBounds_ids shown).mpr
        ⟨linked.agree.mpr up, content, known, named⟩
      have was : tree.IsObjectBound bound := ⟨_, content, up, isParameter, known, named⟩
      refine (tidied_removeObjectBound (fits.wasOf _ rfl) siblings).burden_lt linked none_spared
        .objectBound was ?_
      rintro ⟨_, _, still, _⟩
      rw [cutAll_parent?, if_pos cut] at still
      cases still
  | flipEquals =>
      obtain ⟨_, text, _, _, rfl⟩ := replaceAt_succeeded succeeded
      exact fragment_burden_lt (Or.inr mends)
  | rename name => exact mends.elim

end Fix

end TreeLint
