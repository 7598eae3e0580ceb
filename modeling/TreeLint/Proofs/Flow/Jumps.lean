import TreeLint.Proofs.Flow.Execution

/-! Where the outcomes of executions come from. An execution that ends in a jump has met the jump,
outside of nested classes and, for a `break`, outside of nested loops.
-/

namespace TreeLint

-----------------------------------------------------------------------------------------
-- Parts of nodes
-----------------------------------------------------------------------------------------

namespace Subtree

theorem body?_mem {node body : Subtree} (found : node.body? = some body)
    : body ∈ node.children := by
  rcases Option.or_eq_some_iff.mp found with role | ⟨_, kind⟩
  · exact List.mem_of_find?_eq_some role
  · exact List.mem_of_find?_eq_some kind

theorem thenBranch?_mem {node branch : Subtree} (found : node.thenBranch? = some branch)
    : branch ∈ node.children := by
  rcases Option.or_eq_some_iff.mp found with role | ⟨_, kind⟩
  · exact List.mem_of_find?_eq_some role
  · exact List.mem_of_find?_eq_some kind

/-- What a node may execute stands right below it. -/
theorem Enters.subset {node : Subtree} {row : List Subtree} (part : node.Enters row)
    : row ⊆ node.children := by
  cases part with
  | block => exact List.filter_subset_self _
  | expression => exact List.Subset.refl _
  | guarded => exact fun _ member => body?_mem (Option.mem_toList.mp member)
  | taken => exact fun _ member => thenBranch?_mem (Option.mem_toList.mp member)
  | declined => exact fun _ member => List.mem_of_find?_eq_some (Option.mem_toList.mp member)

/-- Only statements and code blocks that are neither jumps nor loops execute parts of themselves. -/
theorem Enters.kind {node : Subtree} {row : List Subtree} (part : node.Enters row)
    : node.kind.isExecuted
      ∧ node.kind.isClass = false
      ∧ node.kind.isLoop = false
      ∧ node.kind.jump? = none
      ∧ node.kind ≠ .throwStatement := by
  cases part with
  | block kind => rcases kind with kind | kind <;> rw [kind] <;> decide
  | expression kind => rw [kind]; decide
  | guarded kind => rw [kind]; decide
  | taken kind => rw [kind]; decide
  | declined kind => rw [kind]; decide

end Subtree

-----------------------------------------------------------------------------------------
-- Tracing outcomes
-----------------------------------------------------------------------------------------

/-- The property holds of a node, or of a node of a row. -/
def Code.Has (hands : Subtree → Prop) : Code → Prop
  | .node whole => hands whole
  | .row nodes => ∃ part ∈ nodes, hands part

/-- A property of the jumps with an outcome that is handed on from the parts that run to the whole
holds of all code that ends with the outcome, by induction on the execution.
-/
theorem Runs.traced {jump : Outcome} {hands : Subtree → Prop} (abrupt : jump ≠ .normal)
    (notThrown : jump ≠ .thrown)
    (source : ∀ node, node.kind.jump? = some jump → hands node)
    (entered : ∀ node row, node.Enters row → (∃ part ∈ row, hands part) → hands node)
    (leaving : ∀ node iteration,
      node.kind.isLoop
      → iteration.leaving? = some jump
      → iteration = jump ∧ ((∃ part ∈ node.body?.toList, hands part) → hands node))
    {code : Code} {outcome : Outcome} (run : Runs code outcome) (same : outcome = jump)
    : code.Has hands := by
  induction run with
  | done => exact absurd same.symm abrupt
  | next _ _ _ later =>
      obtain ⟨node, member, holds⟩ := later same
      exact ⟨node, List.mem_cons_of_mem _ member, holds⟩
  | abrupt _ _ here => exact ⟨_, List.mem_cons_self, here same⟩
  | throws _ => exact absurd same.symm notThrown
  | evaluated _ => exact absurd same.symm abrupt
  | jumps found => exact source _ (same ▸ found)
  | enters part _ inside => exact entered _ _ part (inside same)
  | ends _ _ => exact absurd same.symm abrupt
  | endsBehind _ _ _ _ _ => exact absurd same.symm abrupt
  | again _ _ _ _ _ more => exact more same
  | left loop _ leaves inside =>
      subst same
      obtain ⟨unchanged, passes⟩ := leaving _ _ loop leaves
      exact passes (inside unchanged)

-----------------------------------------------------------------------------------------
-- Breaks and returns
-----------------------------------------------------------------------------------------

namespace Subtree

def HandsBreak (node : Subtree) : Prop :=
  node.kind = .breakStatement
    ∨ (node.kind.isClass = false ∧ node.kind.isLoop = false ∧ node.hasBreak)

def HandsReturn (node : Subtree) : Prop :=
  node.kind = .returnStatement ∨ (node.kind.isClass = false ∧ node.hasReturn)

theorem hasBreakAmong_iff {nodes : List Subtree}
    : hasBreakAmong nodes ↔ ∃ node ∈ nodes, node.HandsBreak := by
  induction nodes with
  | nil => simp [hasBreakAmong]
  | cons node rest ih => simp [hasBreakAmong, HandsBreak, ih, or_assoc, and_assoc]

theorem hasBreak_iff {node : Subtree}
    : node.hasBreak ↔ ∃ child ∈ node.children, child.HandsBreak := by
  cases node
  exact hasBreakAmong_iff

theorem hasReturnAmong_iff {nodes : List Subtree}
    : hasReturnAmong nodes ↔ ∃ node ∈ nodes, node.HandsReturn := by
  induction nodes with
  | nil => simp [hasReturnAmong]
  | cons node rest ih => simp [hasReturnAmong, HandsReturn, ih, or_assoc]

theorem hasReturn_iff {node : Subtree}
    : node.hasReturn ↔ ∃ child ∈ node.children, child.HandsReturn := by
  cases node
  exact hasReturnAmong_iff

end Subtree

/-- What ends in a `break` that is for the code around it hands one on. -/
theorem Runs.handsBreak {node : Subtree} (run : Runs (.node node) .broken) : node.HandsBreak := by
  change Code.Has Subtree.HandsBreak (.node node)
  refine traced (by decide) (by decide) ?_ ?_ ?_ run rfl
  · intro node found
    cases kind : node.kind <;> simp [kind, NodeKind.jump?] at found
    exact Or.inl kind
  · intro node row part ⟨inner, member, hands⟩
    obtain ⟨_, notClass, notLoop, _⟩ := part.kind
    exact Or.inr ⟨notClass, notLoop, Subtree.hasBreak_iff.mpr ⟨inner, part.subset member, hands⟩⟩
  · intro node iteration _ leaves
    cases iteration <;> simp [Outcome.leaving?] at leaves

theorem Runs.handsReturn {node : Subtree} (run : Runs (.node node) .returned)
    : node.HandsReturn := by
  change Code.Has Subtree.HandsReturn (.node node)
  refine traced (by decide) (by decide) ?_ ?_ ?_ run rfl
  · intro node found
    cases kind : node.kind <;> simp [kind, NodeKind.jump?] at found
    exact Or.inl kind
  · intro node row part ⟨inner, member, hands⟩
    exact Or.inr ⟨part.kind.2.1, Subtree.hasReturn_iff.mpr ⟨inner, part.subset member, hands⟩⟩
  · intro node iteration loop leaves
    cases iteration <;> simp [Outcome.leaving?] at leaves
    refine ⟨rfl, fun ⟨inner, member, hands⟩ => Or.inr ⟨?_, ?_⟩⟩
    · cases kind : node.kind <;> simp [kind, NodeKind.isLoop] at loop <;> rfl
    · have below := Subtree.body?_mem (Option.mem_toList.mp member)
      exact Subtree.hasReturn_iff.mpr ⟨inner, below, hands⟩

-----------------------------------------------------------------------------------------
-- Loops and other code
-----------------------------------------------------------------------------------------

/-- A node that is no loop throws, has nothing to do beyond an evaluation, jumps, or ends as the row
does that it enters.
-/
theorem Runs.straight_cases {node : Subtree} {outcome : Outcome} (straight : ¬node.kind.isLoop)
    (run : Runs (.node node) outcome)
    : outcome = .thrown
      ∨ (node.kind.isEvaluated ∧ outcome = .normal)
      ∨ node.kind.jump? = some outcome
      ∨ ∃ row, node.Enters row ∧ Runs (.row row) outcome := by
  cases run with
  | throws => exact Or.inl rfl
  | evaluated only => exact Or.inr (Or.inl ⟨only, rfl⟩)
  | jumps jump => exact Or.inr (Or.inr (Or.inl jump))
  | enters part inside => exact Or.inr (Or.inr (Or.inr ⟨_, part, inside⟩))
  | ends kind =>
      refine absurd ?_ straight
      rcases kind with kind | kind <;> rw [kind] <;> rfl
  | endsBehind kind => exact absurd (by rw [kind]; rfl) straight
  | again loop => exact absurd loop straight
  | left loop => exact absurd loop straight

/-- A loop ends by a throw of its own, because an iteration leaves it, or because its condition
fails, which is looked at behind the first iteration at the earliest if the condition stands there.
-/
theorem Runs.loop_cases {node : Subtree} {outcome : Outcome} (loop : node.kind.isLoop)
    (run : Runs (.node node) outcome)
    : outcome = .thrown
      ∨ (∃ iteration,
          Runs (.row node.body?.toList) iteration ∧ iteration.leaving? = some outcome)
      ∨ (outcome = .normal
          ∧ Subtree.MayFail (node.childWithRole? .condition)
          ∧ (node.kind = .doWhileStatement
              → ∃ iteration,
                  Runs (.row node.body?.toList) iteration ∧ iteration.staysInLoop)) := by
  generalize same : Code.node node = code at run
  induction run with
  | done => cases same
  | next => cases same
  | abrupt => cases same
  | throws => exact Or.inl rfl
  | evaluated only =>
      cases same
      cases kind : node.kind <;> simp_all [NodeKind.isLoop, NodeKind.isEvaluated,
        NodeKind.isExecuted, NodeKind.isStatement]
  | jumps jump =>
      cases same
      cases kind : node.kind <;> simp_all [NodeKind.isLoop, NodeKind.jump?]
  | enters part =>
      cases same
      have other := part.kind.2.2.1
      rw [loop] at other
      cases other
  | ends kind fails =>
      cases same
      refine Or.inr (Or.inr ⟨rfl, fails, fun other => ?_⟩)
      rcases kind with kind | kind <;> cases kind.symm.trans other
  | endsBehind _ inside stays fails =>
      cases same
      exact Or.inr (Or.inr ⟨rfl, fails, fun _ => ⟨_, inside, stays⟩⟩)
  | again _ _ _ _ _ more =>
      cases same
      exact more rfl
  | left _ inside leaves =>
      cases same
      exact Or.inr (Or.inl ⟨_, inside, leaves⟩)

end TreeLint
