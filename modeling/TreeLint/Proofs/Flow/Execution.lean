import TreeLint.Proofs.Tree.Subtrees
import TreeLint.Subtree.Flow

/-! What the execution of statements can come to. Conditions that may fail are left open, and
whatever evaluates something may throw, so a statement has several executions.
-/

namespace TreeLint

-----------------------------------------------------------------------------------------
-- Outcomes
-----------------------------------------------------------------------------------------

/-- How the execution of a piece of code ends. -/
inductive Outcome where
  | normal
  | broken
  | continued
  | returned
  | thrown
  deriving DecidableEq, Repr

namespace Outcome

/-- An iteration that ends so sends its loop back to the condition. -/
def staysInLoop : Outcome → Bool
  | .normal | .continued => true
  | _ => false

/-- How a loop ends that an iteration leaves, if the iteration leaves it. -/
def leaving? : Outcome → Option Outcome
  | .broken => some .normal
  | .returned => some .returned
  | .thrown => some .thrown
  | _ => none

end Outcome

namespace NodeKind

def jump? : NodeKind → Option Outcome
  | .breakStatement => some .broken
  | .continueStatement => some .continued
  | .returnStatement => some .returned
  | _ => none

/-- Nodes of the kind evaluate something before they do anything else. -/
def evaluates : NodeKind → Bool
  | .codeBlock | .blockStatement | .breakStatement | .continueStatement => false
  | _ => true

/-- Nodes of the kind are executed in their turn when they stand in a block. -/
def isExecuted (kind : NodeKind) : Bool :=
  kind.isStatement || kind == .codeBlock

/-- Nodes of the kind do nothing beyond evaluating something. -/
def isEvaluated (kind : NodeKind) : Bool :=
  kind == .declarationStatement || !kind.isExecuted

end NodeKind

-----------------------------------------------------------------------------------------
-- Executions
-----------------------------------------------------------------------------------------

namespace Subtree

/-- The condition may turn out false: it is there and is not the literal `true`. -/
def MayFail (condition : Option Subtree) : Prop :=
  ∃ shown,
    condition.map stripParentheses = some shown
    ∧ ¬(shown.kind = .literal ∧ shown.text? = some "true")

/-- The branch of an `if` that runs when the condition holds: the child with the role of a body, or
else the first code block that is not the other branch.
-/
def thenBranch? (node : Subtree) : Option Subtree :=
  (node.childWithRole? .body).or
    (node.children.find? fun child => child.kind == .codeBlock && child.role != .otherwise)

/-- Executing the node, if it is not a loop, may mean to execute the nodes of the row. -/
inductive Enters (node : Subtree) : List Subtree → Prop where
  | block (kind : node.kind = .codeBlock ∨ node.kind = .blockStatement)
      : Enters node (node.children.filter (·.kind.isExecuted))
  | expression (kind : node.kind = .expressionStatement) : Enters node node.children
  | guarded (kind : node.kind = .synchronizedStatement) : Enters node node.body?.toList
  | taken (kind : node.kind = .ifStatement) : Enters node node.thenBranch?.toList
  | declined (kind : node.kind = .ifStatement) (fails : MayFail (node.childWithRole? .condition))
      : Enters node (node.childWithRole? .otherwise).toList

end Subtree

/-- What can be executed: a node, or some nodes in a row. -/
inductive Code where
  | node (node : Subtree)
  | row (nodes : List Subtree)

/-- Some execution of the code ends with the outcome. Nested classes are not executed. -/
inductive Runs : Code → Outcome → Prop where
  | done : Runs (.row []) .normal
  | next {first : Subtree} {rest : List Subtree} {outcome : Outcome}
      (here : Runs (.node first) .normal) (later : Runs (.row rest) outcome)
      : Runs (.row (first :: rest)) outcome
  | abrupt {first : Subtree} {rest : List Subtree} {outcome : Outcome}
      (here : Runs (.node first) outcome) (leaves : outcome ≠ .normal)
      : Runs (.row (first :: rest)) outcome
  | throws {node : Subtree} (evaluates : node.kind.evaluates) : Runs (.node node) .thrown
  | evaluated {node : Subtree} (only : node.kind.isEvaluated) : Runs (.node node) .normal
  | jumps {node : Subtree} {outcome : Outcome} (jump : node.kind.jump? = some outcome)
      : Runs (.node node) outcome
  | enters {node : Subtree} {row : List Subtree} {outcome : Outcome} (part : node.Enters row)
      (inside : Runs (.row row) outcome)
      : Runs (.node node) outcome
  | ends {node : Subtree} (kind : node.kind = .forStatement ∨ node.kind = .whileStatement)
      (fails : Subtree.MayFail (node.childWithRole? .condition))
      : Runs (.node node) .normal
  | endsBehind {node : Subtree} {iteration : Outcome} (kind : node.kind = .doWhileStatement)
      (inside : Runs (.row node.body?.toList) iteration) (stays : iteration.staysInLoop)
      (fails : Subtree.MayFail (node.childWithRole? .condition))
      : Runs (.node node) .normal
  | again {node : Subtree} {iteration outcome : Outcome} (loop : node.kind.isLoop)
      (inside : Runs (.row node.body?.toList) iteration) (stays : iteration.staysInLoop)
      (more : Runs (.node node) outcome)
      : Runs (.node node) outcome
  | left {node : Subtree} {iteration outcome : Outcome} (loop : node.kind.isLoop)
      (inside : Runs (.row node.body?.toList) iteration)
      (leaves : iteration.leaving? = some outcome)
      : Runs (.node node) outcome

namespace Runs

/-- A row completes normally only if each of its nodes does, by induction on the row. -/
theorem normal_of_mem {nodes : List Subtree} (run : Runs (.row nodes) .normal) {node : Subtree}
    (member : node ∈ nodes)
    : Runs (.node node) .normal := by
  induction nodes with
  | nil => cases member
  | cons first rest ih =>
      cases run with
      | next here later =>
          rcases List.mem_cons.mp member with rfl | member
          · exact here
          · exact ih later member
      | abrupt here leaves => exact absurd rfl leaves

/-- A row that does not complete ends as the first of its nodes that does not, by induction on the
row.
-/
theorem abrupt_iff {nodes : List Subtree} {outcome : Outcome} (abrupt : outcome ≠ .normal)
    : Runs (.row nodes) outcome
      ↔ ∃ before part after,
          nodes = before ++ part :: after
          ∧ (∀ earlier ∈ before, Runs (.node earlier) .normal)
          ∧ Runs (.node part) outcome := by
  induction nodes with
  | nil =>
      constructor
      · intro run
        cases run
        exact absurd rfl abrupt
      · rintro ⟨before, _, _, split, _⟩
        cases before <;> cases split
  | cons first rest ih =>
      constructor
      · intro run
        cases run with
        | next here later =>
            obtain ⟨before, part, after, rfl, completed, run⟩ := ih.mp later
            refine ⟨first :: before, part, after, rfl, ?_, run⟩
            exact List.forall_mem_cons.mpr ⟨here, completed⟩
        | abrupt here _ => exact ⟨[], first, rest, rfl, List.forall_mem_nil _, here⟩
      · rintro ⟨before, part, after, split, completed, run⟩
        cases before with
        | nil =>
            cases split
            exact .abrupt run abrupt
        | cons head before =>
            cases split
            obtain ⟨here, completed⟩ := List.forall_mem_cons.mp completed
            exact .next here (ih.mpr ⟨before, part, after, rfl, completed, run⟩)

/-- A row ends otherwise only by one of its nodes. -/
theorem abrupt_mem {nodes : List Subtree} {outcome : Outcome} (run : Runs (.row nodes) outcome)
    (abrupt : outcome ≠ .normal)
    : ∃ node ∈ nodes, Runs (.node node) outcome := by
  obtain ⟨before, part, after, rfl, _, run⟩ := (abrupt_iff abrupt).mp run
  exact ⟨part, List.mem_append_right before List.mem_cons_self, run⟩

/-- A part that may be missing does nothing then, and else runs as the node that it is. -/
theorem toList_iff {part : Option Subtree} {outcome : Outcome}
    : Runs (.row part.toList) outcome
      ↔ (part = none ∧ outcome = .normal)
        ∨ ∃ node, part = some node ∧ Runs (.node node) outcome := by
  cases part with
  | none =>
      refine ⟨fun run => ?_, ?_⟩
      · cases run
        exact Or.inl ⟨rfl, rfl⟩
      · rintro (⟨_, rfl⟩ | ⟨_, missing, _⟩)
        · exact .done
        · cases missing
  | some node =>
      refine ⟨fun run => Or.inr ⟨node, rfl, ?_⟩, ?_⟩
      · cases run with
        | next here later =>
            cases later
            exact here
        | abrupt here _ => exact here
      · rintro (⟨missing, _⟩ | ⟨_, same, run⟩)
        · cases missing
        · cases same
          by_cases normal : outcome = .normal
          · subst normal
            exact .next run .done
          · exact .abrupt run normal

end Runs
end TreeLint
