import TreeLint.Constant
import TreeLint.Proofs.Tree.Contents

/-! What two trees show at the same number. Lists of children with a property agree where the lists
do and the property does. Looking through parentheses ends at nodes that agree, where all nodes on
the way do.
-/

namespace TreeLint

-----------------------------------------------------------------------------------------
-- Looking through parentheses
-----------------------------------------------------------------------------------------

namespace Subtree

theorem stripParentheses_of_ne {node : Subtree} (other : node.kind ≠ .parenthesizedExpression)
    : node.stripParentheses = node := by
  cases node with
  | mk id content children =>
      cases children with
      | nil => rfl
      | cons inner rest => exact if_neg other

theorem stripParentheses_of_empty {node : Subtree} (empty : node.children = [])
    : node.stripParentheses = node := by
  cases node with
  | mk id content children =>
      cases empty
      rfl

theorem stripParentheses_of_first {node inner : Subtree} {rest : List Subtree}
    (isParentheses : node.kind = .parenthesizedExpression) (first : node.children = inner :: rest)
    : node.stripParentheses = inner.stripParentheses := by
  cases node with
  | mk id content children =>
      cases first
      exact if_pos isParentheses

theorem constantAs?_of_own {node : Subtree}
    (own : ¬(node.kind = .parenthesizedExpression ∧ node.facts.constant = none)) (type : String)
    : node.constantAs? type = node.facts.constant.bind (Constant.cast? · type) := by
  cases node with
  | mk id content children =>
      cases children with
      | nil => rfl
      | cons inner rest => exact if_neg own

/-- Parentheses around nothing that have no value of their own have none. -/
theorem constantAs?_of_empty {node : Subtree} (noValue : node.facts.constant = none)
    (empty : node.children = []) (type : String)
    : node.constantAs? type = none := by
  cases node with
  | mk id content children =>
      cases empty
      exact congrArg (Option.bind · _) noValue

theorem constantAs?_of_first {node inner : Subtree} {rest : List Subtree}
    (around : node.kind = .parenthesizedExpression ∧ node.facts.constant = none)
    (first : node.children = inner :: rest) (type : String)
    : node.constantAs? type = inner.constantAs? type := by
  cases node with
  | mk id content children =>
      cases first
      exact if_pos around

end Subtree

namespace Tree

-----------------------------------------------------------------------------------------
-- Lists of children
-----------------------------------------------------------------------------------------

section Children

variable {tree after : Tree} {id : NodeId}

theorem variablesOf_congr (children : after.childIds id = tree.childIds id)
    (kinds : ∀ child ∈ tree.childIds id, after.kind? child = tree.kind? child)
    : after.variablesOf id = tree.variablesOf id := by
  rw [variablesOf, variablesOf, children]
  exact List.filter_congr fun child member => by rw [kinds child member]

theorem childAt?_congr {role : Role} (children : after.childIds id = tree.childIds id)
    (roles
      : ∀ child ∈ tree.childIds id,
          (after.content? child).any (·.role == role) = (tree.content? child).any (·.role == role))
    : after.childAt? id role = tree.childAt? id role := by
  rw [childAt?, childAt?, children, ← List.head?_filter, ← List.head?_filter]
  exact congrArg _ (List.filter_congr fun child member => roles child member)

/-- The first child of a found subtree is the first in the arena. -/
theorem head?_children {found : Subtree} (shown : tree.subtree? found.id = some found)
    : (found.children.head?).map Subtree.id = (tree.childIds found.id).head? := by
  rw [← List.head?_map, subtree?_children shown]

end Children

-----------------------------------------------------------------------------------------
-- Counterparts
-----------------------------------------------------------------------------------------

/-- A child with a role has a counterpart, if the arenas name the same child. -/
theorem childWithRole?_before {tree after : Tree} {found now nowChild : Subtree} {role : Role}
    (shown : tree.subtree? found.id = some found) (nowShown : after.subtree? now.id = some now)
    (same : now.id = found.id)
    (children : after.childAt? found.id role = tree.childAt? found.id role)
    (isChild : now.childWithRole? role = some nowChild)
    : ∃ child,
        found.childWithRole? role = some child
        ∧ nowChild.id = child.id
        ∧ tree.subtree? child.id = some child
        ∧ after.subtree? nowChild.id = some nowChild := by
  rw [← childWithRole?_id shown, ← same, ← childWithRole?_id nowShown, isChild, Option.map_some,
    eq_comm, Option.map_eq_some_iff] at children
  obtain ⟨child, wasChild, number⟩ := children
  exact ⟨child, wasChild, number.symm,
    (subtree?_of_mem_children shown (List.mem_of_find?_eq_some wasChild)).1,
    (subtree?_of_mem_children nowShown (List.mem_of_find?_eq_some isChild)).1⟩

/-- Both trees have the node, in one of them parentheses exactly if it is in the other, and then
with the same node first inside; and its kinds pass a test or fail it together.
-/
def SeenAlike (test : NodeKind → Bool) (tree after : Tree) (id : NodeId) : Prop :=
  ∃ before now,
    tree.kind? id = some before
    ∧ after.kind? id = some now
    ∧ test now = test before
    ∧ (now = .parenthesizedExpression ↔ before = .parenthesizedExpression)
    ∧ (before = .parenthesizedExpression
        → (after.childIds id).head? = (tree.childIds id).head?)

/-- Where all nodes are seen alike, looking through parentheses ends at the same node of both trees,
by induction on the subtree.
-/
theorem stripParentheses_counterpart {test : NodeKind → Bool} {tree after : Tree}
    (alike : ∀ id < tree.size, SeenAlike test tree after id) {found now : Subtree}
    (shown : tree.subtree? found.id = some found)
    (nowShown : after.subtree? now.id = some now) (same : now.id = found.id)
    : tree.subtree? found.stripParentheses.id = some found.stripParentheses
      ∧ after.subtree? now.stripParentheses.id = some now.stripParentheses
      ∧ now.stripParentheses.id = found.stripParentheses.id := by
  induction found using Subtree.induction generalizing now with
  | step found ih =>
      obtain ⟨before, other, isBefore, isOther, _, together, heads⟩ :=
        alike found.id (lt_size_of_kind? (kind?_of_shown shown))
      cases isBefore.symm.trans (kind?_of_shown shown)
      rw [← same] at isOther
      cases isOther.symm.trans (kind?_of_shown nowShown)
      by_cases around : found.kind = .parenthesizedExpression
      · have first := heads around
        rw [← head?_children shown, ← same, ← head?_children nowShown] at first
        cases inside : found.children with
        | nil =>
            rw [inside, List.head?_nil, Option.map_none, Option.map_eq_none_iff,
              List.head?_eq_none_iff] at first
            rw [Subtree.stripParentheses_of_empty inside, Subtree.stripParentheses_of_empty first]
            exact ⟨shown, nowShown, same⟩
        | cons inner rest =>
            rw [inside, List.head?_cons, Option.map_some, Option.map_eq_some_iff] at first
            obtain ⟨nowInner, nowFirst, number⟩ := first
            obtain ⟨nowRest, nowInside⟩ := List.head?_eq_some_iff.mp nowFirst
            rw [Subtree.stripParentheses_of_first around inside,
              Subtree.stripParentheses_of_first (together.mpr around) nowInside]
            have member : inner ∈ found.children := inside ▸ List.mem_cons_self
            have nowMember : nowInner ∈ now.children := nowInside ▸ List.mem_cons_self
            exact ih inner member (subtree?_of_mem_children shown member).1
              (subtree?_of_mem_children nowShown nowMember).1 number
      · rw [Subtree.stripParentheses_of_ne around,
          Subtree.stripParentheses_of_ne (mt together.mp around)]
        exact ⟨shown, nowShown, same⟩

/-- What is inside of parentheses is seen alike where all nodes are. -/
theorem stripParentheses_alike {test : NodeKind → Bool} {tree after : Tree}
    (alike : ∀ id < tree.size, SeenAlike test tree after id) {found now : Subtree}
    (shown : tree.subtree? found.id = some found)
    (nowShown : after.subtree? now.id = some now) (same : now.id = found.id)
    : test now.stripParentheses.kind = test found.stripParentheses.kind := by
  obtain ⟨inside, nowInside, number⟩ := stripParentheses_counterpart alike shown nowShown same
  obtain ⟨before, other, isBefore, isOther, tested, _⟩ :=
    alike _ (lt_size_of_kind? (kind?_of_shown inside))
  rw [← number] at isOther
  cases isBefore.symm.trans (kind?_of_shown inside)
  cases isOther.symm.trans (kind?_of_shown nowInside)
  exact tested

/-- A value that is seen in the second tree was seen in the first, if nodes there say the same or
have no value, by induction on the subtree.
-/
theorem constantAs?_before {tree after : Tree}
    (alike
      : ∀ id content,
          tree.content? id = some content
          → ∃ now, after.content? id = some now
            ∧ (now.kind = content.kind ∧ now.facts = content.facts
                  ∧ after.childIds id = tree.childIds id
                ∨ now.kind ≠ .parenthesizedExpression ∧ now.facts.constant = none))
    {found now : Subtree} (shown : tree.subtree? found.id = some found)
    (nowShown : after.subtree? now.id = some now) (same : now.id = found.id)
    {type : String} {value : Constant} (valued : now.constantAs? type = some value)
    : found.constantAs? type = some value := by
  induction found using Subtree.induction generalizing now with
  | step found ih =>
      obtain ⟨other, isOther, position⟩ := alike found.id _ (content?_of_shown shown)
      rw [← same] at isOther
      cases isOther.symm.trans (content?_of_shown nowShown)
      rcases position with ⟨kind, facts, children⟩ | ⟨notAround, noValue⟩
      · by_cases around : found.kind = .parenthesizedExpression ∧ found.facts.constant = none
        · have nowAround : now.kind = .parenthesizedExpression ∧ now.facts.constant = none :=
            ⟨kind.trans around.1, (congrArg Facts.constant facts).trans around.2⟩
          have first : now.children.head?.map Subtree.id = found.children.head?.map Subtree.id := by
            rw [head?_children shown, head?_children nowShown, same, children]
          cases inside : now.children with
          | nil =>
              rw [Subtree.constantAs?_of_empty nowAround.2 inside] at valued
              cases valued
          | cons nowInner nowRest =>
              rw [inside, List.head?_cons, Option.map_some, eq_comm, Option.map_eq_some_iff] at first
              obtain ⟨inner, isFirst, number⟩ := first
              obtain ⟨rest, foundInside⟩ := List.head?_eq_some_iff.mp isFirst
              rw [Subtree.constantAs?_of_first nowAround inside] at valued
              rw [Subtree.constantAs?_of_first around foundInside]
              have member : inner ∈ found.children := foundInside ▸ List.mem_cons_self
              have nowMember : nowInner ∈ now.children := inside ▸ List.mem_cons_self
              exact ih inner member (subtree?_of_mem_children shown member).1
                (subtree?_of_mem_children nowShown nowMember).1 number.symm valued
        · have nowOwn : ¬(now.kind = .parenthesizedExpression ∧ now.facts.constant = none) :=
            fun around' => around ⟨kind.symm.trans around'.1,
              (congrArg Facts.constant facts).symm.trans around'.2⟩
          rw [Subtree.constantAs?_of_own nowOwn] at valued
          rw [Subtree.constantAs?_of_own around, ← valued]
          exact congrArg (·.constant.bind (Constant.cast? · type)) facts.symm
      · rw [Subtree.constantAs?_of_own fun around => notAround around.1] at valued
        have noFact : now.facts.constant = none := noValue
        rw [noFact] at valued
        cases valued

end Tree

end TreeLint
