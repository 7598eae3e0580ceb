import TreeLint.Proofs.Flow.Soundness

/-! The scan for statements that must throw against the executions. A block with such a statement
never completes, but the scan does not look at what stands in front of the statement. Main result:
what must throw ends in a throw alone exactly where no execution of a block jumps out of it before
it comes to the statement.
-/

namespace TreeLint

open Subtree

-----------------------------------------------------------------------------------------
-- Jumps
-----------------------------------------------------------------------------------------

/-- Control goes elsewhere, and not by a throw. -/
def Outcome.isJump : Outcome → Bool
  | .broken | .continued | .returned => true
  | .normal | .thrown => false

theorem Outcome.isJump_iff {outcome : Outcome}
    : outcome.isJump ↔ outcome ≠ .normal ∧ outcome ≠ .thrown := by
  cases outcome <;> decide

/-- What ends in a jump holds a statement that jumps so. -/
theorem Runs.jump_below {node : Subtree} {jump : Outcome} (isJump : jump.isJump)
    (run : Runs (.node node) jump)
    : ∃ inner ∈ node.nodes, inner.kind.jump? = some jump := by
  obtain ⟨abrupt, calm⟩ := Outcome.isJump_iff.mp isJump
  have handed {node part : Subtree} (member : part ∈ node.children)
      : (∃ inner ∈ part.nodes, inner.kind.jump? = some jump)
        → ∃ inner ∈ node.nodes, inner.kind.jump? = some jump := by
    rintro ⟨inner, inside, jumps⟩
    exact ⟨inner, mem_nodes_iff.mpr (Or.inr ⟨part, member, inside⟩), jumps⟩
  change Code.Has (fun node => ∃ inner ∈ node.nodes, inner.kind.jump? = some jump) (.node node)
  refine traced abrupt calm ?_ ?_ ?_ run rfl
  · exact fun node jumps => ⟨node, self_mem_nodes node, jumps⟩
  · exact fun node row entered ⟨part, member, hands⟩ => handed (entered.subset member) hands
  · intro node iteration _ leaves
    refine ⟨?_, fun ⟨part, member, hands⟩ => handed (body?_mem (Option.mem_toList.mp member)) hands⟩
    cases iteration <;> cases leaves
    · exact absurd rfl abrupt
    · rfl
    · exact absurd rfl calm

namespace Subtree

-----------------------------------------------------------------------------------------
-- Blocks that are left early
-----------------------------------------------------------------------------------------

/-- An execution jumps out of a block that must throw: the parts in front of some part of the block
complete, and that part, which is none of those that must throw, jumps.
-/
structure LeftEarly (node : Subtree) : Prop where
  block : node.kind = .codeBlock ∨ node.kind = .blockStatement
  throws : node.mustThrow
  leaves
    : ∃ before part after outcome,
        node.children.filter (·.kind.isExecuted) = before ++ part :: after
        ∧ (∀ earlier ∈ before, Runs (.node earlier) .normal)
        ∧ ¬(part.kind.isStatement ∧ part.mustThrow)
        ∧ outcome.isJump
        ∧ Runs (.node part) outcome

/-- A block that is left early has an execution that ends in a jump. -/
theorem LeftEarly.jumps {node : Subtree} (early : node.LeftEarly)
    : ∃ outcome, outcome.isJump ∧ Runs (.node node) outcome := by
  obtain ⟨before, part, after, outcome, split, completed, _, isJump, run⟩ := early.leaves
  have abrupt := (Outcome.isJump_iff.mp isJump).1
  have row := (Runs.abrupt_iff abrupt).mpr ⟨before, part, after, split, completed, run⟩
  exact ⟨outcome, isJump, .enters (.block early.block) row⟩

/-- Where no block is left early, what must throw does so in every execution, by induction on the
subtree.
-/
theorem thrown_of_mustThrow {node : Subtree} (plain : node.WithoutFlowFacts)
    (never : ∀ inner ∈ node.nodes, ¬inner.LeftEarly) (throws : node.mustThrow)
    {outcome : Outcome} (run : Runs (.node node) outcome)
    : outcome = .thrown := by
  induction node using Subtree.induction generalizing outcome with
  | step node ih =>
      rcases mustThrow_cases plain throws with kind | ⟨kind, _⟩
      · exact thrown_of_throw kind run
      · by_contra calm
        have abrupt : outcome ≠ .normal := by
          rintro rfl
          exact not_runs_of_mustThrow plain throws run
        obtain ⟨before, part, after, split, completed, inside⟩ :=
          (Runs.abrupt_iff abrupt).mp (row_of_block kind calm run)
        have member : part ∈ node.children :=
          List.mem_of_mem_filter (split ▸ List.mem_append_right before List.mem_cons_self)
        by_cases scanned : part.kind.isStatement ∧ part.mustThrow
        · have deeper : ∀ inner ∈ part.nodes, ¬inner.LeftEarly := fun inner below =>
            never inner (mem_nodes_iff.mpr (Or.inr ⟨part, member, below⟩))
          exact calm (ih part member (plain.child member) deeper scanned.2 inside)
        · refine never node (self_mem_nodes node) ⟨kind, throws, ?_⟩
          exact ⟨before, part, after, outcome, split, completed, scanned,
            Outcome.isJump_iff.mpr ⟨abrupt, calm⟩, inside⟩

/-- Without jumps no block is left early. -/
theorem not_leftEarly_of_noJump {node : Subtree}
    (noJump : ∀ inner ∈ node.nodes, inner.kind.jump? = none)
    : ¬node.LeftEarly := by
  intro early
  obtain ⟨outcome, isJump, run⟩ := early.jumps
  obtain ⟨inner, inside, jumps⟩ := run.jump_below isJump
  cases (noJump inner inside).symm.trans jumps

-----------------------------------------------------------------------------------------
-- Soundness and its limits
-----------------------------------------------------------------------------------------

/-- Without facts of the host, what must throw does not complete. In a statement and everything
below it, what must throw ends in a throw alone exactly if no block is left early, as is the case
where nothing breaks, continues or returns.
-/
theorem mustThrow_sound_iff {statement : Subtree} (plain : statement.WithoutFlowFacts)
    : (∀ node ∈ statement.nodes, node.mustThrow → ¬Runs (.node node) .normal)
      ∧ ((∀ node ∈ statement.nodes, node.mustThrow →
            ∀ outcome, Runs (.node node) outcome → outcome = .thrown)
          ↔ ∀ node ∈ statement.nodes, ¬node.LeftEarly)
      ∧ ((∀ node ∈ statement.nodes, node.kind.jump? = none)
          → ∀ node ∈ statement.nodes, ¬node.LeftEarly) := by
  have below {node : Subtree} (member : node ∈ statement.nodes) : node.WithoutFlowFacts :=
    fun inner inside => plain inner (mem_nodes_trans member inside)
  refine ⟨fun node member throws => not_runs_of_mustThrow (below member) throws,
    ⟨fun sound node member early => ?_, fun never node member throws outcome run => ?_⟩,
    fun noJump node member => ?_⟩
  · obtain ⟨outcome, isJump, run⟩ := early.jumps
    exact (Outcome.isJump_iff.mp isJump).2 (sound node member early.throws outcome run)
  · refine thrown_of_mustThrow (below member) (fun inner inside => ?_) throws run
    exact never inner (mem_nodes_trans member inside)
  · exact not_leftEarly_of_noJump fun inner inside =>
      noJump inner (mem_nodes_trans member inside)

end Subtree

/-- A block with a call and a block that throws behind it: `{ log(); { throw error; } }`. -/
def nestedThrow : Subtree :=
  .mk 4 { kind := .blockStatement }
    [.mk 5 { kind := .expressionStatement } [.mk 6 { kind := .methodCall, name := some "log" } []],
      .mk 7 { kind := .blockStatement } [.mk 8 { kind := .throwStatement } []]]

/-- The block must throw, and every execution of it does. -/
theorem nestedThrow_thrown
    : nestedThrow.WithoutFlowFacts
      ∧ nestedThrow.mustThrow
      ∧ ∀ outcome, Runs (.node nestedThrow) outcome → outcome = .thrown := by
  have plain : nestedThrow.WithoutFlowFacts := by
    unfold WithoutFlowFacts
    decide
  have noJump : ∀ node ∈ nestedThrow.nodes, node.kind.jump? = none := by decide
  obtain ⟨_, sound, never⟩ := mustThrow_sound_iff plain
  exact ⟨plain, rfl, sound.mpr (never noJump) nestedThrow (self_mem_nodes nestedThrow) rfl⟩

/-- A statement that returns if a condition holds: `if (done) return;`. -/
def guardedReturn : Subtree :=
  .mk 5 { kind := .ifStatement }
    [.mk 6 { kind := .referenceExpression, name := some "done", role := .condition } [],
      .mk 7 { kind := .returnStatement, role := .body } []]

/-- A block that returns or else throws: `{ if (done) return; throw error; }`. -/
def guardedThrow : Subtree :=
  .mk 4 { kind := .blockStatement } [guardedReturn, .mk 8 { kind := .throwStatement } []]

/-- The block must throw, as the scan has it, and yet it returns as soon as its condition holds. -/
theorem guardedThrow_returns
    : (Tree.ofDocument (methodDocument guardedThrow)).subtree? 4 = some guardedThrow
      ∧ guardedThrow.WithoutFlowFacts
      ∧ guardedThrow.mustThrow
      ∧ guardedThrow.LeftEarly
      ∧ Runs (.node guardedThrow) .returned := by
  have plain : guardedThrow.WithoutFlowFacts := by
    unfold WithoutFlowFacts
    decide
  have branch : Runs (.node guardedReturn) .returned :=
    .enters (.taken rfl) (.abrupt (.jumps rfl) (by decide))
  refine ⟨rfl, plain, rfl, ⟨Or.inr rfl, rfl, ?_⟩, ?_⟩
  · exact ⟨[], guardedReturn, _, .returned, rfl, List.forall_mem_nil _, by decide, rfl, branch⟩
  · exact .enters (.block (Or.inr rfl)) (.abrupt branch (by decide))

end TreeLint
