import TreeLint.Proofs.Tree.Counterparts
import TreeLint.Proofs.Tree.Outcomes

/-! What the children of a node show, after a change of the tree. Most nodes have the same children
as before; some have fewer, and some have a new one.
-/

namespace TreeLint

/-- Of a list with items left out, what is behind the first item was behind the first before, by
cases on the list.
-/
theorem drop_filter_sublist (test : α → Bool) (items : List α)
    : ((items.filter test).drop 1).Sublist (items.drop 1) := by
  cases items with
  | nil => exact .refl _
  | cons head rest =>
      cases passes : test head with
      | true =>
          rw [List.filter_cons_of_pos passes]
          exact List.filter_sublist
      | false =>
          rw [List.filter_cons_of_neg (by simp [passes])]
          exact (List.drop_sublist 1 _).trans List.filter_sublist

namespace Tree

/-- A field keeps its types, and a declaration may lose variables. Parentheses are around the same
node, and a call that is not spared has the same receiver.
-/
structure ShapeKept (tree : Tree) (spared : NodeId → Prop) (after : Tree) (id : NodeId) : Prop where
  types
    : tree.kind? id = some .field
      → ∀ child ∈ tree.childIds id, tree.kind? child = some .typeElement → child ∈ after.childIds id
  declarations
    : tree.kind? id = some .declarationStatement
      → ((after.variablesOf id).drop 1).Sublist ((tree.variablesOf id).drop 1)
  parentheses
    : tree.kind? id = some .parenthesizedExpression
      → (after.childIds id).head? = (tree.childIds id).head?
  receivers
    : tree.kind? id = some .methodCall
      → ¬spared id
      → after.childAt? id .qualifier = tree.childAt? id .qualifier

/-- What a node is to its parent. -/
def guise? (tree : Tree) (id : NodeId) : Option (NodeKind × Role) :=
  (tree.content? id).map fun content => (content.kind, content.role)

theorem kind?_of_guise? {tree after : Tree} {id : NodeId}
    (same : after.guise? id = tree.guise? id)
    : after.kind? id = tree.kind? id := by
  have first (tree : Tree) : tree.kind? id = (tree.guise? id).map Prod.fst := by
    rw [kind?, guise?, Option.map_map]
    rfl
  rw [first, first, same]

theorem role_of_guise? {tree after : Tree} {id : NodeId} (same : after.guise? id = tree.guise? id)
    (role : Role)
    : (after.content? id).any (·.role == role) = (tree.content? id).any (·.role == role) := by
  have second (tree : Tree)
      : (tree.content? id).any (·.role == role) = (tree.guise? id).any (·.2 == role) := by
    rw [guise?, Option.any_map]
  rw [second, second, same]

namespace ShapeKept

variable {tree middle after : Tree} {spared : NodeId → Prop} {id : NodeId}

/-- The same children make the same shape, if they are the same to their parent. -/
theorem of_children (children : after.childIds id = tree.childIds id)
    (guises : ∀ child ∈ tree.childIds id, after.guise? child = tree.guise? child)
    : tree.ShapeKept spared after id where
  types _ child member _ := children ▸ member
  declarations _ := by
    rw [variablesOf_congr children fun child member => kind?_of_guise? (guises child member)]
  parentheses _ := congrArg List.head? children
  receivers _ _ := childAt?_congr children fun child member =>
    role_of_guise? (guises child member) .qualifier

/-- Nothing is kept of the children of a node that was not there. -/
theorem of_new (new : tree.size ≤ id) : tree.ShapeKept spared after id where
  types isKind := absurd (lt_size_of_kind? isKind) (Nat.not_lt_of_le new)
  declarations isKind := absurd (lt_size_of_kind? isKind) (Nat.not_lt_of_le new)
  parentheses isKind := absurd (lt_size_of_kind? isKind) (Nat.not_lt_of_le new)
  receivers isKind := absurd (lt_size_of_kind? isKind) (Nat.not_lt_of_le new)

/-- Children other than types may go, unless they are in parentheses or below a call. -/
theorem of_fewer {stays : NodeId → Bool}
    (children : after.childIds id = (tree.childIds id).filter stays)
    (guises : ∀ child ∈ tree.childIds id, after.guise? child = tree.guise? child)
    (typesStay
      : tree.kind? id = some .field
        → ∀ child ∈ tree.childIds id, tree.kind? child = some .typeElement → stays child)
    (notAround : tree.kind? id ≠ some .parenthesizedExpression)
    (noCall : tree.kind? id = some .methodCall → spared id)
    : tree.ShapeKept spared after id where
  types isField child member isType :=
    children ▸ List.mem_filter.mpr ⟨member, typesStay isField child member isType⟩
  declarations _ := by
    have kept : after.variablesOf id = (tree.variablesOf id).filter stays := by
      rw [variablesOf, variablesOf, children, List.filter_filter, List.filter_filter]
      refine List.filter_congr fun child member => ?_
      rw [kind?_of_guise? (guises child member), Bool.and_comm]
    rw [kept]
    exact drop_filter_sublist _ _
  parentheses around := absurd around notAround
  receivers isCall apart := absurd (noCall isCall) apart

/-- A new child that is neither a variable nor a receiver may come behind another one. -/
theorem of_insert {index : Nat} {new : NodeId}
    (children : after.childIds id = (tree.childIds id).insertIdx index new)
    (inside : index ≤ (tree.childIds id).length)
    (guises : ∀ child ∈ tree.childIds id, after.guise? child = tree.guise? child)
    (noVariable : after.kind? new ≠ some .localVariable)
    (noReceiver : (after.content? new).any (·.role == .qualifier) = false)
    (behind : tree.kind? id = some .parenthesizedExpression → 0 < index)
    : tree.ShapeKept spared after id := by
  rw [insertIdx_eq_append inside] at children
  have whole := (tree.childIds id).take_append_drop index
  have among {child : NodeId} (member : child ∈ (tree.childIds id).take index
        ∨ child ∈ (tree.childIds id).drop index)
      : child ∈ tree.childIds id := member.elim List.mem_of_mem_take List.mem_of_mem_drop
  constructor
  · intro _ child member _
    rw [← whole, List.mem_append] at member
    rw [children, List.mem_append, List.mem_cons]
    exact member.imp_right Or.inr
  · intro _
    have kept : after.variablesOf id = tree.variablesOf id := by
      rw [variablesOf, variablesOf, children, ← whole, List.filter_append, List.filter_append,
        List.filter_cons_of_neg (by simpa using noVariable), whole]
      congr 1
      · exact List.filter_congr fun child member => by
          rw [kind?_of_guise? (guises child (among (Or.inl member)))]
      · exact List.filter_congr fun child member => by
          rw [kind?_of_guise? (guises child (among (Or.inr member)))]
    rw [kept]
  · intro around
    obtain ⟨before, rfl⟩ := Nat.exists_eq_succ_of_ne_zero (Nat.ne_of_gt (behind around))
    rw [children]
    cases list : tree.childIds id with
    | nil =>
        rw [list] at inside
        exact absurd inside (Nat.not_succ_le_zero before)
    | cons first rest => rfl
  · intro _ _
    rw [childAt?, childAt?, children, ← List.head?_filter, ← List.head?_filter, ← whole,
      List.filter_append, List.filter_append, List.filter_cons_of_neg (by simp [noReceiver]), whole]
    congr 2
    · exact List.filter_congr fun child member =>
        role_of_guise? (guises child (among (Or.inl member))) .qualifier
    · exact List.filter_congr fun child member =>
        role_of_guise? (guises child (among (Or.inr member))) .qualifier

end ShapeKept

end Tree

end TreeLint
