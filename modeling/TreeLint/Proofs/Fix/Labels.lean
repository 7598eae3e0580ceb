import TreeLint.Proofs.Fix.CutOffs
import TreeLint.Proofs.Tree.Reloading

/-! Labels under fixes. No edit that a fix makes gives a node another label, and the nodes that fixes
add carry none. So labels that are distinct stay so, whatever fixes are applied one after the other.
-/

namespace TreeLint

namespace Tree

variable {tree middle other : Tree}

-----------------------------------------------------------------------------------------
-- Labels under edits
-----------------------------------------------------------------------------------------

/-- Every node carries the label that it carried, if any, and new ones carry none. -/
def SameLabels (tree other : Tree) : Prop :=
  ∀ id, other.labelAt? id = tree.labelAt? id

theorem SameLabels.refl (tree : Tree) : tree.SameLabels tree :=
  fun _ => rfl

theorem SameLabels.trans (first : tree.SameLabels middle) (second : middle.SameLabels other)
    : tree.SameLabels other :=
  fun id => (second id).trans (first id)

theorem SameLabels.of_contents (same : ∀ id, other.content? id = tree.content? id)
    : tree.SameLabels other := fun id => by
  rw [labelAt?, labelAt?, same]

theorem LabelsDistinct.of_same (distinct : tree.LabelsDistinct) (same : tree.SameLabels other)
    : other.LabelsDistinct :=
  labelsDistinct_iff.mpr fun id next label own further =>
    labelsDistinct_iff.mp distinct id next label ((same id).symm.trans own)
      ((same next).symm.trans further)

/-- Neither has a label, or both have the same. -/
theorem reword_sameLabels (tree : Tree) (id : NodeId) {f : Content → Content}
    (keeps : ∀ content, (f content).label = content.label)
    : tree.SameLabels (tree.reword id f) := by
  intro other
  rw [labelAt?, labelAt?, reword_content?]
  split
  · cases tree.content? other with
    | none => rfl
    | some content => exact keeps content
  · rfl

theorem fragment_sameLabels (tree : Tree) (id : NodeId) (text : String)
    : tree.SameLabels (tree.fragment id text) := by
  intro other
  rw [labelAt?, labelAt?, fragment_content?]
  split
  · cases tree.content? other <;> rfl
  · rfl

theorem cut_sameLabels (tree : Tree) (parent child : NodeId)
    : tree.SameLabels (tree.cut parent child) :=
  .of_contents (tree.cut_content? parent child)

theorem hang_sameLabels (tree : Tree) (parent : NodeId) (index : Nat) (child : NodeId)
    : tree.SameLabels (tree.hang parent index child) :=
  .of_contents (tree.hang_content? parent index child)

/-- New nodes without labels change no label. -/
theorem grow_sameLabels (tree : Tree) {outline : Outline}
    (plain : outline.contents.filterMap (·.label) = [])
    : tree.SameLabels (tree.grow outline) := by
  intro id
  by_cases old : id < tree.size
  · rw [labelAt?, labelAt?, grow_content?_of_lt old]
  · obtain ⟨i, rfl⟩ := exists_add_of_not_lt old
    have before : tree.labelAt? (tree.size + i) = none := by
      rw [labelAt?, content?, node?_eq_none_iff.mpr (Nat.le_add_right _ _)]
      rfl
    rw [before, labelAt?, grow_content?_add]
    cases here : outline.contents[i]? with
    | none => rfl
    | some content =>
        exact List.filterMap_eq_nil_iff.mp plain content (List.mem_of_getElem? here)

/-- A variable for the receiver of a call changes no label, step by step. -/
theorem withVariable_sameLabels (tree : Tree) (call receiver block : NodeId) (index : Nat)
    (name typeName : String)
    : tree.SameLabels (tree.withVariable call receiver block index name typeName) := by
  have grown : tree.SameLabels (tree.grow (variableOutline name typeName)) :=
    tree.grow_sameLabels rfl
  have declared
      : tree.SameLabels (tree.withDeclaration call receiver block index name typeName) := by
    refine .trans ?_ (hang_sameLabels _ block index tree.size)
    refine .trans ?_ (hang_sameLabels _ (tree.size + 1) 0 receiver)
    refine .trans ?_ (reword_sameLabels _ receiver fun _ => rfl)
    exact grown.trans (cut_sameLabels _ call receiver)
  have used := (tree.withDeclaration call receiver block index name typeName).grow_sameLabels
    (show (referenceOutline name typeName).contents.filterMap (·.label) = [] from rfl)
  exact (declared.trans used).trans (hang_sameLabels _ call 0 (tree.size + 2))

end Tree

-----------------------------------------------------------------------------------------
-- Labels under fixes
-----------------------------------------------------------------------------------------

namespace Fix

open TreeLint.Tree

variable {tree after : Tree} {anchor : NodeId}

/-- Declarations of their own change no label, by induction on the list. -/
theorem declareApart_sameLabels (coherent : tree.Coherent) {statement block : NodeId}
    {ids : List NodeId} {index : Nat} (each : ∀ id ∈ ids, tree.DeclaredIn statement id block)
    (distinct : ids.Nodup)
    (succeeded : (declareApart block index ids).apply tree = (.ok (), after))
    : tree.SameLabels after := by
  induction ids generalizing tree index with
  | nil =>
      obtain rfl : tree = after := congrArg Prod.snd succeeded
      exact .refl tree
  | cons declared rest ih =>
      have declaredIn := each declared List.mem_cons_self
      obtain ⟨fresh, restDistinct⟩ := List.nodup_cons.mp distinct
      obtain ⟨middleCoherent, more⟩ := declareApart_step coherent declaredIn succeeded
      have moved : tree.SameLabels (tree.withDeclared statement declared block index) :=
        (tree.cut_sameLabels _ _).trans <| (grow_sameLabels _ rfl).trans <|
          (hang_sameLabels _ _ _ _).trans (hang_sameLabels _ _ _ _)
      refine moved.trans (ih middleCoherent (fun other member => ?_) restDistinct more)
      exact declaredIn.rest (each other (List.mem_cons_of_mem declared member))
        fun same => fresh (same ▸ member)

theorem splitDeclaration_sameLabels (coherent : tree.Coherent)
    (succeeded : (splitDeclaration.applyAt anchor).apply tree = (.ok (), after))
    : tree.SameLabels after := by
  obtain ⟨node, _, ⟨_, splits⟩ | ⟨_, writes⟩⟩ := splitDeclaration_cases succeeded
  · obtain ⟨_, _, _, _, _, each, distinct, moves⟩ := splitStatement_moves coherent splits
    exact declareApart_sameLabels coherent each distinct moves
  · rw [writeFieldType] at writes
    split at writes
    · obtain ⟨typeName, _, more⟩ := Edit.require_succeeded writes
      obtain ⟨rfl, _⟩ := Edit.hangNew_succeeded coherent more
      exact (tree.grow_sameLabels rfl).trans (hang_sameLabels _ _ _ _)
    · obtain rfl : tree = after := congrArg Prod.snd writes
      exact .refl tree

/-- A fix that is applied changes no label. -/
theorem applyAt_sameLabels {fix : Fix} (coherent : tree.Coherent)
    (succeeded : (fix.applyAt anchor).apply tree = (.ok (), after))
    : tree.SameLabels after := by
  cases fix with
  | removeModifier modifier =>
      obtain rfl := removeModifier_succeeded succeeded
      exact reword_sameLabels tree anchor fun _ => rfl
  | nameInnerClass =>
      obtain ⟨_, creation, outer, name, base, text, filled, _, _, _, _, _, _, moved, _, rfl⟩ :=
        nameInnerClass_moves coherent succeeded
      have grown : tree.SameLabels (tree.grow (innerClassOutline name base)) :=
        tree.grow_sameLabels rfl
      exact (grown.trans (.of_contents moved.contents)).trans <|
        (hang_sameLabels _ _ _ _).trans (fragment_sameLabels _ creation text)
  | splitDeclaration => exact splitDeclaration_sameLabels coherent succeeded
  | introduceVariable =>
      obtain ⟨receiver, block, index, name, typeName, _, rfl⟩ :=
        introduceVariable_succeeded coherent succeeded
      exact tree.withVariable_sameLabels anchor receiver block index name typeName
  | simplify =>
      obtain ⟨_, _, _, _, rfl⟩ := replaceAt_succeeded succeeded
      exact tree.fragment_sameLabels anchor _
  | removeObjectBound =>
      obtain ⟨parameter, _, rfl, _⟩ := removeObjectBound_succeeded coherent.toLinked succeeded
      exact .of_contents (tree.cutAll_content? anchor _)
  | flipEquals =>
      obtain ⟨_, _, _, _, rfl⟩ := replaceAt_succeeded succeeded
      exact tree.fragment_sameLabels anchor _
  | rename name =>
      obtain ⟨_, rfl⟩ := Edit.reword_succeeded succeeded
      exact reword_sameLabels tree anchor fun _ => rfl

end Fix

-----------------------------------------------------------------------------------------
-- Fixes in a row
-----------------------------------------------------------------------------------------

/-- What fixes that succeed make of a tree, one after the other. -/
inductive Tree.FixedTo (tree : Tree) : Tree → Prop where
  | refl : tree.FixedTo tree
  | fixed {middle after : Tree} {fix : Fix} {anchor : NodeId} (before : tree.FixedTo middle)
    (succeeded : (fix.applyAt anchor).apply middle = (.ok (), after))
    : tree.FixedTo after

namespace Tree.FixedTo

variable {tree after : Tree}

theorem coherent (fixed : tree.FixedTo after) (coherent : tree.Coherent) : after.Coherent := by
  induction fixed with
  | refl => exact coherent
  | fixed _ succeeded ih => exact Fix.coherent_of_applyAt ih succeeded

/-- Fixes in a row change no label, by induction on them. -/
theorem sameLabels (fixed : tree.FixedTo after) (coherent : tree.Coherent)
    : tree.SameLabels after := by
  induction fixed with
  | refl => exact .refl tree
  | fixed before succeeded ih =>
      exact ih.trans (Fix.applyAt_sameLabels (before.coherent coherent) succeeded)

end Tree.FixedTo

end TreeLint
