import TreeLint.Outline.Builder
import TreeLint.Proofs.Document.RoundTrip

/-! How many containers the document of an outline opens inside each other. A node opens one, and more
for modifiers, a span and facts. Each step down to a child opens two more: the list of the children,
and the child.
-/

namespace TreeLint

open Json

-----------------------------------------------------------------------------------------
-- What a node says about itself
-----------------------------------------------------------------------------------------

/-- A list of names is one container, and none at all if it is empty. -/
theorem fieldDepth_names (name : α → String) (items : List α) [Decidable (items = [])]
    : fieldDepth (omitDefault [] (arrayOf fun item => string (name item)) items)
      = if items = [] then 0 else 1 := by
  have flat : depthItems (items.map fun item => string (name item)) = 0 := by
    refine Nat.le_zero.mp (depthItems_le_iff.mpr fun item member => ?_)
    obtain ⟨_, _, rfl⟩ := List.mem_map.mp member
    exact Nat.le_refl 0
  rw [omitDefault]
  split
  · rfl
  · rw [fieldDepth_some, arrayOf, depth, flat]

namespace Content

/-- The containers that open inside each other for a node without its children. -/
def nesting (content : Content) : Nat :=
  (ofMembers content.members).depth

theorem nesting_pos (content : Content) : 0 < content.nesting := by
  rw [nesting, members_eq]
  exact depth_record_pos

/-- Of the fields of a node, modifiers, span and facts are containers. -/
theorem nesting_le_iff {content : Content} {room : Nat}
    : content.nesting ≤ room + 1
      ↔ (content.modifiers ≠ [] → 1 ≤ room)
        ∧ fieldDepth (content.span.map Span.toJson) ≤ room
        ∧ fieldDepth (omitDefault { } Facts.toJson content.facts) ≤ room := by
  have modifiers : (if content.modifiers = [] then 0 else 1) ≤ room
      ↔ (content.modifiers ≠ [] → 1 ≤ room) := by
    split
    · next none => exact iff_of_true (Nat.zero_le _) fun some => absurd none some
    · next some => exact ⟨fun fits _ => fits, fun fits => fits some⟩
  rw [nesting, members_eq, depth_record_le_iff, ← modifiers]
  simp [fields, fieldDepth_names]

/-- A node takes no more containers than another one if it has modifiers only where that one has, and
the span and the facts of that one or no facts.
-/
theorem nesting_le_of {now before : Content}
    (modifiers : now.modifiers ≠ [] → before.modifiers ≠ []) (span : now.span = before.span)
    (facts : now.facts = before.facts ∨ now.facts = { })
    : now.nesting ≤ before.nesting := by
  obtain ⟨room, enough⟩ := Nat.exists_eq_add_of_lt before.nesting_pos
  rw [Nat.zero_add] at enough
  obtain ⟨listed, ranges, known⟩ := nesting_le_iff.mp (Nat.le_of_eq enough)
  rw [enough, nesting_le_iff]
  refine ⟨fun some => listed (modifiers some), span ▸ ranges, ?_⟩
  rcases facts with same | none
  · rw [same]
    exact known
  · rw [none]
    exact Nat.zero_le room

/-- A node with modifiers and plain facts takes two containers. -/
theorem nesting_le_two {content : Content} (span : content.span = none)
    (facts : content.facts.toJson.depth ≤ 1)
    : content.nesting ≤ 2 := by
  refine nesting_le_iff.mpr ⟨fun _ => Nat.le_refl 1, ?_, ?_⟩
  · rw [span]
    exact Nat.zero_le 1
  · rw [omitDefault]
    split
    · exact Nat.zero_le 1
    · exact facts

end Content

/-- No facts at all are one container. -/
theorem Facts.depth_default : ({ } : Facts).toJson.depth ≤ 1 := by
  decide

/-- The facts of a node of which only the type is known are one container. -/
theorem Facts.depth_ofType (typeName : String)
    : ({ typeName := some typeName } : Facts).toJson.depth ≤ 1 := by
  rw [toJson_eq, depth_record_le_iff]
  simp [fields, omitDefault, fieldDepth]

-----------------------------------------------------------------------------------------
-- Outlines
-----------------------------------------------------------------------------------------

namespace Outline

/-- The list of the children is one container, and each child is inside it. -/
theorem fieldDepth_children_le_iff {children : List Outline} {room : Nat}
    : fieldDepth (omitDefault [] (arrayOf toJson) children) ≤ room
      ↔ ∀ child ∈ children, child.toJson.depth + 1 ≤ room := by
  cases children with
  | nil => exact iff_of_true (Nat.zero_le room) (List.forall_mem_nil _)
  | cons first rest =>
      have listed : fieldDepth (omitDefault [] (arrayOf toJson) (first :: rest))
          = depthItems ((first :: rest).map toJson) + 1 := rfl
      rw [listed]
      cases room with
      | zero => exact iff_of_false (Nat.not_succ_le_zero _) fun all => by simpa using all first
      | succ room =>
          simp only [Nat.add_le_add_iff_right, depthItems_le_iff, List.forall_mem_map]

/-- An outline fits where its node fits, and each child where two more containers are open. -/
theorem depth_mk_le_iff {content : Content} {children : List Outline} {room base : Nat}
    : base + (mk content children).toJson.depth ≤ room
      ↔ base + content.nesting ≤ room
        ∧ ∀ child ∈ children, base + 2 + child.toJson.depth ≤ room := by
  have unbased {inner : Nat}
      : (mk content children).toJson.depth ≤ inner + 1
        ↔ content.nesting ≤ inner + 1 ∧ ∀ child ∈ children, child.toJson.depth + 1 ≤ inner := by
    rw [toJson_eq, depth_record_le_iff, fields, List.forall_mem_append, List.forall_mem_singleton,
      fieldDepth_children_le_iff, Content.nesting, Content.members_eq, depth_record_le_iff]
  have positive := content.nesting_pos
  have outlinePositive : 0 < (mk content children).toJson.depth := by
    rw [toJson_eq]
    exact depth_record_pos
  rcases Nat.lt_or_ge base room with inside | outside
  · obtain ⟨inner, rfl⟩ := Nat.exists_eq_add_of_lt inside
    rw [Nat.add_assoc, Nat.add_le_add_iff_left, Nat.add_le_add_iff_left, unbased]
    refine and_congr_right fun _ => forall₂_congr fun child _ => ?_
    omega
  · refine iff_of_false ?_ fun fits => ?_ <;> omega

end Outline

/-- A document opens one container around its root. -/
theorem Document.depth_le_iff {document : Document} {room : Nat}
    : document.toJson.depth ≤ room + 1 ↔ document.root.toJson.depth ≤ room := by
  rw [toJson_eq, depth_record_le_iff]
  simp [fields]

end TreeLint
