import Mathlib.Data.Prod.Lex
import Mathlib.Data.Set.Card
import TreeLint.Proofs.Fix.Tidying

/-! A measure of how much there is to fix in a tree. Its first part counts expressions and anonymous
classes, its second part the problems that the other fixes take away, wherever the nodes stand. A
change that tidies a tree leaves the first part as it is, or less, and so the second.
-/

namespace TreeLint

/-- The kinds of problems that are taken away without losing a node. -/
inductive Blemish where
  | finalModifier
  | missingType
  | sharedDeclaration
  | chainedCall
  | objectBound
  deriving DecidableEq, Repr

instance : Fintype Blemish where
  elems := {.finalModifier, .missingType, .sharedDeclaration, .chainedCall, .objectBound}
  complete blemish := by cases blemish <;> decide

namespace Tree

-----------------------------------------------------------------------------------------
-- The measure
-----------------------------------------------------------------------------------------

def HasBlemish (tree : Tree) : Blemish → NodeId → Prop
  | .finalModifier, id => tree.IsFinal id
  | .missingType, id => tree.BareField id
  | .sharedDeclaration, id => ∃ declaration, tree.StandsBehind declaration id
  | .chainedCall, id => tree.CallsResult id
  | .objectBound, id => tree.IsObjectBound id

/-- The node is an expression that text may replace, or an anonymous class that hangs somewhere. -/
def IsBulky (tree : Tree) (id : NodeId) : Prop :=
  tree.kind? id = some .binaryExpression
  ∨ tree.kind? id = some .methodCall
  ∨ tree.kind? id = some .anonymousClass ∧ tree.parent? id ≠ none

noncomputable def bulk (tree : Tree) : Nat :=
  {id | tree.IsBulky id}.ncard

/-- The number of problems that are taken away without losing a node. -/
noncomputable def clutter (tree : Tree) : Nat :=
  {spot : Blemish × NodeId | tree.HasBlemish spot.1 spot.2}.ncard

noncomputable def burden (tree : Tree) : Nat ×ₗ Nat :=
  toLex (tree.bulk, tree.clutter)

theorem IsBulky.lt_size {tree : Tree} {id : NodeId} (bulky : tree.IsBulky id) : id < tree.size := by
  rcases bulky with isKind | isKind | ⟨isKind, _⟩ <;> exact lt_size_of_kind? isKind

theorem HasBlemish.lt_size {tree : Tree} {blemish : Blemish} {id : NodeId}
    (blemished : tree.HasBlemish blemish id)
    : id < tree.size := by
  cases blemish with
  | finalModifier =>
      obtain ⟨_, known, _⟩ := blemished
      exact lt_size_of_content? known
  | missingType => exact lt_size_of_kind? blemished.1
  | sharedDeclaration =>
      obtain ⟨_, behind⟩ := blemished
      exact lt_size_of_kind? behind.2.1
  | chainedCall =>
      obtain ⟨call, shown, _⟩ := blemished
      obtain rfl := subtree?_id shown
      exact lt_size_of_kind? (kind?_of_shown shown)
  | objectBound =>
      obtain ⟨_, _, _, _, known, _⟩ := blemished
      exact lt_size_of_content? known

theorem finite_bulky (tree : Tree) : {id | tree.IsBulky id}.Finite :=
  (Set.finite_lt_nat tree.size).subset fun _ bulky => bulky.lt_size

theorem finite_blemishes (tree : Tree)
    : {spot : Blemish × NodeId | tree.HasBlemish spot.1 spot.2}.Finite :=
  (Set.finite_univ.prod (Set.finite_lt_nat tree.size)).subset fun _ blemished =>
    ⟨Set.mem_univ _, blemished.lt_size⟩

-----------------------------------------------------------------------------------------
-- Changes that lighten the burden
-----------------------------------------------------------------------------------------

variable {tree after : Tree}

/-- With no new bulky node and one bulky node less, the burden is less. -/
theorem burden_lt_of_bulk (fewer : ∀ id, after.IsBulky id → tree.IsBulky id) {id : NodeId}
    (was : tree.IsBulky id) (gone : ¬after.IsBulky id)
    : after.burden < tree.burden := by
  refine Prod.Lex.toLex_lt_toLex.mpr (Or.inl ?_)
  exact Set.ncard_lt_ncard ⟨fewer, fun all => gone (all was)⟩ tree.finite_bulky

/-- With no new bulky node and no new problem, the burden is no greater. -/
theorem burden_le_of_fewer (lighter : ∀ id, after.IsBulky id → tree.IsBulky id)
    (fewer : ∀ blemish id, after.HasBlemish blemish id → tree.HasBlemish blemish id)
    : after.burden ≤ tree.burden := by
  have bulk : after.bulk ≤ tree.bulk := Set.ncard_le_ncard lighter tree.finite_bulky
  have clutter : after.clutter ≤ tree.clutter :=
    Set.ncard_le_ncard (fun spot => fewer spot.1 spot.2) tree.finite_blemishes
  exact Prod.Lex.toLex_mono ⟨bulk, clutter⟩

/-- With no new bulky node, no new problem and one problem less, the burden is less. -/
theorem burden_lt_of_fewer (lighter : ∀ id, after.IsBulky id → tree.IsBulky id)
    (fewer : ∀ blemish id, after.HasBlemish blemish id → tree.HasBlemish blemish id)
    {blemish : Blemish} {id : NodeId} (was : tree.HasBlemish blemish id)
    (gone : ¬after.HasBlemish blemish id)
    : after.burden < tree.burden := by
  have bulk : after.bulk ≤ tree.bulk := Set.ncard_le_ncard lighter tree.finite_bulky
  have clutter : after.clutter < tree.clutter :=
    Set.ncard_lt_ncard ⟨fun spot => fewer spot.1 spot.2, fun all => gone (@all (blemish, id) was)⟩
      tree.finite_blemishes
  refine Prod.Lex.toLex_lt_toLex.mpr ?_
  exact bulk.lt_or_eq.imp_right fun same => ⟨same, clutter⟩

namespace Tidied

variable {spared : NodeId → Prop}

theorem isBulky_before (tidied : tree.Tidied spared after) {id : NodeId} (bulky : after.IsBulky id)
    : tree.IsBulky id := by
  rcases bulky with isKind | isKind | ⟨isKind, hung⟩
  · exact Or.inl (tidied.kind?_before (by decide) isKind)
  · exact Or.inr (Or.inl (tidied.kind?_before (by decide) isKind))
  · have wasKind := tidied.kind?_before (by decide) isKind
    exact Or.inr (Or.inr ⟨wasKind, fun top => hung (tidied.top_kept (lt_size_of_kind? wasKind) top)⟩)

/-- Where the spared calls have no problem now, every problem is one from before. -/
theorem hasBlemish_before (tidied : tree.Tidied spared after) (linked : tree.Linked)
    (cleared : ∀ id, spared id → ¬after.CallsResult id) (blemish : Blemish) (id : NodeId)
    (blemished : after.HasBlemish blemish id)
    : tree.HasBlemish blemish id := by
  cases blemish with
  | finalModifier => exact tidied.isFinal_before blemished
  | missingType => exact tidied.bareField_before blemished
  | sharedDeclaration =>
      obtain ⟨declaration, behind⟩ := blemished
      exact ⟨declaration, tidied.standsBehind_before behind⟩
  | chainedCall =>
      exact tidied.callsResult_before linked (fun isSpared => cleared id isSpared blemished) blemished
  | objectBound => exact tidied.isObjectBound_before blemished

theorem burden_le (tidied : tree.Tidied spared after) (linked : tree.Linked)
    (cleared : ∀ id, spared id → ¬after.CallsResult id)
    : after.burden ≤ tree.burden :=
  burden_le_of_fewer (fun _ => tidied.isBulky_before) (tidied.hasBlemish_before linked cleared)

/-- A change that tidies a tree and takes a problem away lightens its burden. -/
theorem burden_lt (tidied : tree.Tidied spared after) (linked : tree.Linked)
    (cleared : ∀ id, spared id → ¬after.CallsResult id) (blemish : Blemish) {id : NodeId}
    (was : tree.HasBlemish blemish id) (gone : ¬after.HasBlemish blemish id)
    : after.burden < tree.burden :=
  burden_lt_of_fewer (fun _ => tidied.isBulky_before) (tidied.hasBlemish_before linked cleared) was
    gone

end Tidied

end Tree

end TreeLint
