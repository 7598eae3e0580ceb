import Mathlib.Data.List.Flatten
import TreeLint.Outline.Builder
import TreeLint.Proofs.Flow.Jumps
import TreeLint.Proofs.Tree.Attachment
import TreeLint.Shape.Method

/-! The `return` statements of a method. The search for one and the count of them look at the same
nodes: the `return` statements below a node that no class and no other `return` stands around.
Main result: a node has a `return` exactly if it has a positive number of them, the number is that
of these nodes, and a method adds one way out if control can reach its end.
-/

namespace TreeLint

namespace Subtree

-----------------------------------------------------------------------------------------
-- Searching and counting
-----------------------------------------------------------------------------------------

/-- The number of `return` statements is added up child by child. -/
theorem returnCount_eq (node : Subtree)
    : node.returnCount
      = (node.children.map fun child =>
          if child.kind = .returnStatement then 1
          else if child.kind.isClass then 0
          else child.returnCount).sum := by
  have among (nodes : List Subtree)
      : returnCountAmong nodes
        = (nodes.map fun child =>
            if child.kind = .returnStatement then 1
            else if child.kind.isClass then 0
            else child.returnCount).sum := by
    induction nodes with
    | nil => rfl
    | cons child rest ih => rw [returnCountAmong, ih, List.map_cons, List.sum_cons]
  cases node
  exact among _

/-- The `return` statements below the node, apart from those inside a class or inside another
`return`.
-/
def ownReturns (node : Subtree) : List Subtree :=
  node.recurse fun _ children =>
    children.flatMap fun (child, inner) =>
      if child.kind = .returnStatement then [child] else if child.kind.isClass then [] else inner

theorem ownReturns_eq (node : Subtree)
    : node.ownReturns
      = node.children.flatMap fun child =>
          if child.kind = .returnStatement then [child]
          else if child.kind.isClass then []
          else child.ownReturns := by
  rw [ownReturns, recurse_eq]
  simp only [List.flatMap_map]
  rfl

/-- The count is right, by induction on the subtree. -/
theorem length_ownReturns (node : Subtree) : node.ownReturns.length = node.returnCount := by
  induction node using Subtree.induction with
  | step node ih =>
      rw [ownReturns_eq, returnCount_eq, List.length_flatMap]
      refine congrArg List.sum (List.map_congr_left fun child member => ?_)
      split
      · rfl
      · split
        · rfl
        · exact ih child member

/-- The search finds a `return` exactly if the count is positive, by induction on the subtree. -/
theorem hasReturn_iff_returnCount (node : Subtree) : node.hasReturn ↔ 0 < node.returnCount := by
  induction node using Subtree.induction with
  | step node ih =>
      rw [hasReturn_iff, returnCount_eq, List.sum_pos_iff_exists_pos_nat]
      simp only [List.mem_map, exists_exists_and_eq_and]
      refine exists_congr fun child => and_congr_right fun member => ?_
      have deeper := ih child member
      by_cases isReturn : child.kind = .returnStatement
      · simp [HandsReturn, isReturn]
      · cases isClass : child.kind.isClass <;> simp [HandsReturn, isReturn, isClass, deeper]

/-- They are some of the nodes below, in order, by induction on the subtree. -/
theorem ownReturns_sublist (node : Subtree) : node.ownReturns.Sublist node.nodes := by
  induction node using Subtree.induction with
  | step node ih =>
      rw [ownReturns_eq, nodes_eq]
      refine .cons _ (List.Sublist.flatMap_right _ fun child member => ?_)
      split
      · exact List.singleton_sublist.mpr (self_mem_nodes child)
      · split
        · exact List.nil_sublist _
        · exact ih child member

end Subtree

-----------------------------------------------------------------------------------------
-- The returns below a node
-----------------------------------------------------------------------------------------

namespace Tree

/-- The node is a class or a `return`, so that a `return` below it is not one of the code around. -/
def hidesReturns (tree : Tree) (id : NodeId) : Bool :=
  tree.isClassAt id || tree.kind? id == some .returnStatement

/-- The second node is a `return` below the first, with neither a class nor another `return` between
them.
-/
def OwnsReturn (tree : Tree) (upper id : NodeId) : Prop :=
  tree.kind? id = some .returnStatement ∧ tree.ClearlyAbove tree.hidesReturns upper id

variable {tree : Tree}

theorem hidesReturns_of_shown {node : Subtree} (shown : tree.subtree? node.id = some node)
    : tree.hidesReturns node.id = (node.kind.isClass || node.kind == .returnStatement) := by
  rw [hidesReturns, isClassAt_of_shown shown, kind?_of_shown shown]
  rfl

/-- The nodes that the walk comes to are those that the tree shows, by induction on the subtree. -/
theorem Linked.mem_ownReturns_iff (linked : tree.Linked) {node : Subtree} {id : NodeId}
    (shown : tree.subtree? node.id = some node)
    : id ∈ node.ownReturns.map Subtree.id ↔ tree.OwnsReturn node.id id := by
  induction node using Subtree.induction with
  | step node ih =>
      rw [Subtree.ownReturns_eq, List.map_flatMap, List.mem_flatMap]
      constructor
      · rintro ⟨child, among, inside⟩
        have childShown := (subtree?_of_mem_children shown among).1
        have link := linked.parent?_of_mem_children shown among
        split at inside
        · next isReturn =>
            obtain rfl := List.mem_singleton.mp inside
            have kind := (kind?_of_shown childShown).trans (congrArg some isReturn)
            exact ⟨kind, linked.clearlyAbove_iff.mpr ⟨child.id, link, Or.inl rfl⟩⟩
        · next other =>
            split at inside
            · cases inside
            · next outside =>
                obtain ⟨isReturn, below⟩ := (ih child among childShown).mp inside
                have open' : tree.hidesReturns child.id = false := by
                  rw [hidesReturns_of_shown childShown]
                  simp [other, outside]
                exact ⟨isReturn,
                  linked.clearlyAbove_iff.mpr ⟨child.id, link, Or.inr ⟨open', below⟩⟩⟩
      · rintro ⟨isReturn, clear⟩
        obtain ⟨number, link, way⟩ := linked.clearlyAbove_iff.mp clear
        obtain ⟨child, among, rfl⟩ := linked.child_of_parent? shown link
        have childShown := (subtree?_of_mem_children shown among).1
        refine ⟨child, among, ?_⟩
        rcases way with rfl | ⟨open', below⟩
        · rw [if_pos (kind_of_shown childShown isReturn)]
          exact List.mem_singleton.mpr rfl
        · rw [hidesReturns_of_shown childShown, Bool.or_eq_false_iff, beq_eq_false_iff_ne]
            at open'
          rw [if_neg open'.2, if_neg (Bool.eq_false_iff.mp open'.1)]
          exact (ih child among childShown).mpr ⟨isReturn, below⟩

/-- There are as many of them as the walk counts. -/
theorem Linked.ncard_ownsReturn (linked : tree.Linked) {node : Subtree}
    (shown : tree.subtree? node.id = some node)
    : {id | tree.OwnsReturn node.id id}.ncard = node.returnCount := by
  have distinct : (node.ownReturns.map Subtree.id).Nodup :=
    (node.ownReturns_sublist.map Subtree.id).nodup (linked.nodes_nodup shown)
  rw [ncard_of_listed distinct fun _ => (linked.mem_ownReturns_iff shown).symm, List.length_map,
    Subtree.length_ownReturns]

end Tree

-----------------------------------------------------------------------------------------
-- Ways out of a method
-----------------------------------------------------------------------------------------

/-- The method is a constructor or without a result, and it has a body that is empty or whose last
statement can complete.
-/
def Subtree.FallsThrough (method : Subtree) : Prop :=
  (method.facts.isConstructor ∨ method.facts.returnType = some "void")
  ∧ ∃ body,
      method.body? = some body
      ∧ (body.statements = []
        ∨ ∃ last, body.statements.getLast? = some last ∧ last.mayComplete)

theorem Subtree.mayFallThrough_iff {method : Subtree}
    : method.mayFallThrough ↔ method.FallsThrough := by
  rw [mayFallThrough, FallsThrough, Bool.and_eq_true, Bool.or_eq_true, beq_iff_eq,
    Option.any_eq_true]
  refine and_congr_right fun _ => exists_congr fun body => and_congr_right fun _ => ?_
  rw [← List.getLast?_eq_none_iff]
  cases body.statements.getLast? <;> simp

/-- A node has a `return` exactly if the count is positive, and the count is the number of `return`
statements below it with neither a class nor another `return` between. The ways out of a method are
those of its body, and one more exactly if control can reach its end.
-/
theorem Tree.Linked.returns_counted {tree : Tree} (linked : tree.Linked) {id : NodeId}
    (present : id < tree.size)
    : ∃ node,
        tree.subtree? id = some node
        ∧ (node.hasReturn ↔ 0 < node.returnCount)
        ∧ node.returnCount = {inner | tree.OwnsReturn id inner}.ncard
        ∧ (node.FallsThrough
          → node.returnPointCount
            = (node.body?.elim 0 fun body => {inner | tree.OwnsReturn body.id inner}.ncard) + 1)
        ∧ (¬node.FallsThrough
          → node.returnPointCount
            = node.body?.elim 0 fun body => {inner | tree.OwnsReturn body.id inner}.ncard) := by
  obtain ⟨node, shown⟩ := linked.subtree?_exists present
  obtain rfl := subtree?_id shown
  have ofBody : (node.body?.elim 0 fun body => {inner | tree.OwnsReturn body.id inner}.ncard)
      = node.body?.elim 0 Subtree.returnCount := by
    cases found : node.body? with
    | none => rfl
    | some body =>
        have bodyShown := (subtree?_of_mem_children shown (Subtree.body?_mem found)).1
        exact linked.ncard_ownsReturn bodyShown
  refine ⟨node, shown, node.hasReturn_iff_returnCount, (linked.ncard_ownsReturn shown).symm,
    fun falls => ?_, fun stays => ?_⟩
  · rw [ofBody, Subtree.returnPointCount, if_pos (Subtree.mayFallThrough_iff.mpr falls)]
  · rw [ofBody, Subtree.returnPointCount, if_neg (mt Subtree.mayFallThrough_iff.mp stays)]
    rfl

/-- A method that returns if a condition holds and goes on else, with a `return` in the method of an
anonymous class as well.
-/
def guardedExit : Document where
  root :=
    Outline.file.withChild <| (Outline.namedClass "Outer").withChild <|
      (Outline.method "run").withChild <| Outline.codeBlock.append
        [(Outline.ofKind .ifStatement).append
            [(Outline.referenceExpression "done").withRole .condition,
              Outline.returnStatement.withRole .body],
          Outline.expressionStatement <| (Outline.ofKind .newExpression).withChild <|
            (Outline.anonymousClass "Base").withChild <|
              (Outline.method "run").withChild <|
                Outline.codeBlock.withChild Outline.returnStatement]

/-- The method has two ways out: one `return` of its own, and its end. -/
theorem guardedExit_counted
    : ∃ method body,
        (Tree.ofDocument guardedExit).subtree? 2 = some method
        ∧ method.body? = some body
        ∧ method.FallsThrough
        ∧ {inner | (Tree.ofDocument guardedExit).OwnsReturn body.id inner}.ncard = 1
        ∧ method.returnPointCount = 2 := by
  have coherent := Tree.ofDocument_coherent guardedExit
  have present : 2 < (Tree.ofDocument guardedExit).size := by decide
  obtain ⟨method, shown, _, _, ways, _⟩ := coherent.toLinked.returns_counted present
  have falls : method.FallsThrough := by
    cases shown
    exact Subtree.mayFallThrough_iff.mp rfl
  have counted := ways falls
  cases shown
  exact ⟨_, _, rfl, rfl, falls, Nat.add_right_cancel counted.symm, rfl⟩

end TreeLint
