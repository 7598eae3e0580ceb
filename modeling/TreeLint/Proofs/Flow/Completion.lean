import TreeLint.Proofs.Flow.Jumps

/-! The walk over the shape of a statement against its executions. It misses two things: a
`continue` that brings a `do` loop to its condition, and an `if` that has an other branch and
nothing else. Apart from these, a statement that completes in some execution is one that the walk
lets complete.
-/

namespace TreeLint.Subtree

-----------------------------------------------------------------------------------------
-- The walk without facts
-----------------------------------------------------------------------------------------

/-- The host says nothing about the control flow of the node and of what is below it. -/
def WithoutFlowFacts (node : Subtree) : Prop :=
  ∀ inner ∈ node.nodes, inner.facts.completesNormally = none ∧ inner.facts.alwaysThrows = none

theorem WithoutFlowFacts.child {node child : Subtree} (plain : node.WithoutFlowFacts)
    (member : child ∈ node.children)
    : child.WithoutFlowFacts :=
  fun inner inside => plain inner (mem_nodes_iff.mpr (Or.inr ⟨child, member, inside⟩))

/-- A condition keeps a loop going exactly if it cannot fail. -/
theorem mayFail_iff {condition : Option Subtree}
    : MayFail condition ↔ isEndless condition = false := by
  rw [MayFail, isEndless]
  cases condition.map stripParentheses with
  | none => simp
  | some shown => simp

/-- The first of the nodes that pass a test, with its value. -/
private theorem find?_withValue (f : Subtree → β) (test : Subtree → Bool) (nodes : List Subtree)
    : (nodes.map fun node => (node, f node)).find? (test ·.1)
      = (nodes.find? test).map fun node => (node, f node) := by
  rw [List.find?_map]
  rfl

theorem bodyValue?_eq (f : Subtree → β) (node : Subtree)
    : bodyValue? (node.children.map fun child => (child, f child)) = node.body?.map f := by
  rw [bodyValue?, body?, childWithRole?, find?_withValue f (·.role == .body),
    find?_withValue f (·.kind == .codeBlock)]
  cases node.children.find? (·.role == .body) <;>
    cases node.children.find? (·.kind == .codeBlock) <;> rfl

/-- What the walk says of a node without facts, from what it says of the children. -/
theorem mayComplete_eq {node : Subtree} (plain : node.WithoutFlowFacts)
    : node.mayComplete
      = match node.kind with
        | .returnStatement | .throwStatement | .breakStatement | .continueStatement => false
        | .codeBlock | .blockStatement =>
            node.children.all fun child => !child.kind.isStatement || child.mayComplete
        | .synchronizedStatement => node.body?.all mayComplete
        | .ifStatement =>
            match node.childWithRole? .otherwise with
            | none => true
            | some otherwise => node.body?.all mayComplete || otherwise.mayComplete
        | .forStatement | .whileStatement =>
            !isEndless (node.childWithRole? .condition) || node.hasBreak
        | .doWhileStatement =>
            node.body?.all mayComplete && !isEndless (node.childWithRole? .condition)
              || node.hasBreak
        | .expressionStatement => !node.children.any mustThrow
        | _ => true := by
  have unstated := (plain node (self_mem_nodes node)).1
  have bodies : (node.body?.map mayComplete).getD true = node.body?.all mayComplete := by
    cases node.body? <;> rfl
  rw [mayComplete.eq_1, recurse_eq]
  simp only [← mayComplete.eq_1]
  rw [unstated, Option.getD_none, bodyValue?_eq]
  simp only [bodies, List.all_map, Function.comp_def]
  cases node.kind
  case ifStatement =>
    simp only [find?_withValue mayComplete (·.role == .otherwise), childWithRole?]
    cases node.children.find? (·.role == .otherwise) <;> rfl
  all_goals rfl

/-- What makes a statement without facts throw whenever it runs. -/
theorem mustThrow_eq {node : Subtree} (plain : node.WithoutFlowFacts)
    : node.mustThrow
      = match node.kind with
        | .throwStatement => true
        | .codeBlock | .blockStatement =>
            node.children.any fun child => child.kind.isStatement && child.mustThrow
        | _ => false := by
  have unstated := (plain node (self_mem_nodes node)).2
  rw [mustThrow.eq_1, recurse_eq]
  cases node.kind
  all_goals
    simp only [← mustThrow.eq_1, unstated, Option.getD_none, List.any_map, Function.comp_def]

-----------------------------------------------------------------------------------------
-- What is missed
-----------------------------------------------------------------------------------------

/-- A `continue` brings a `do` loop to its condition, which may fail, though the walk says that the
loop does not complete.
-/
structure MissesContinue (node : Subtree) : Prop where
  kind : node.kind = .doWhileStatement
  fails : MayFail (node.childWithRole? .condition)
  continues : Runs (.row node.body?.toList) .continued
  denied : node.mayComplete = false

/-- An `if` completes by its first branch, though the walk says that it does not complete, having
taken the other branch for the first.
-/
structure MistakesBranch (node : Subtree) : Prop where
  kind : node.kind = .ifStatement
  mistaken : node.thenBranch? ≠ node.body?
  completes : Runs (.row node.thenBranch?.toList) .normal
  denied : node.mayComplete = false

/-- The walk goes wrong at the node. -/
def Misjudged (node : Subtree) : Prop :=
  node.MissesContinue ∨ node.MistakesBranch

/-- A misjudged node completes in some execution, and the walk says that it does not. -/
theorem Misjudged.completes {node : Subtree} (misjudged : node.Misjudged)
    : Runs (.node node) .normal ∧ node.mayComplete = false := by
  rcases misjudged with missed | mistaken
  · exact ⟨.endsBehind missed.kind missed.continues rfl missed.fails, missed.denied⟩
  · exact ⟨.enters (.taken mistaken.kind) mistaken.completes, mistaken.denied⟩

-----------------------------------------------------------------------------------------
-- What the walk gets right
-----------------------------------------------------------------------------------------

/-- What must throw is a `throw`, or a block with a statement that must throw. -/
theorem mustThrow_cases {node : Subtree} (plain : node.WithoutFlowFacts) (throws : node.mustThrow)
    : node.kind = .throwStatement
      ∨ ((node.kind = .codeBlock ∨ node.kind = .blockStatement)
          ∧ ∃ child ∈ node.children, child.kind.isStatement ∧ child.mustThrow) := by
  rw [mustThrow_eq plain] at throws
  cases kind : node.kind <;> simp [kind] at throws <;> simp [throws]

/-- A block that does not throw ends as the row of what stands in it. -/
theorem row_of_block {node : Subtree} (kind : node.kind = .codeBlock ∨ node.kind = .blockStatement)
    {outcome : Outcome} (calm : outcome ≠ .thrown) (run : Runs (.node node) outcome)
    : Runs (.row (node.children.filter (·.kind.isExecuted))) outcome := by
  have straight : ¬node.kind.isLoop := by
    rcases kind with kind | kind <;> rw [kind] <;> decide
  rcases run.straight_cases straight with thrown | ⟨only, _⟩ | jump | ⟨row, part, inside⟩
  · exact absurd thrown calm
  · rcases kind with kind | kind <;> rw [kind] at only <;> cases only
  · rcases kind with kind | kind <;> rw [kind] at jump <;> cases jump
  · cases part with
    | block => exact inside
    | expression other => rcases kind with kind | kind <;> cases kind.symm.trans other
    | guarded other => rcases kind with kind | kind <;> cases kind.symm.trans other
    | taken other => rcases kind with kind | kind <;> cases kind.symm.trans other
    | declined other => rcases kind with kind | kind <;> cases kind.symm.trans other

/-- A `throw` ends in a throw. -/
theorem thrown_of_throw {node : Subtree} (kind : node.kind = .throwStatement) {outcome : Outcome}
    (run : Runs (.node node) outcome)
    : outcome = .thrown := by
  have straight : ¬node.kind.isLoop := by
    rw [kind]
    decide
  rcases run.straight_cases straight with thrown | ⟨only, _⟩ | jump | ⟨_, part, _⟩
  · exact thrown
  · rw [kind] at only
    cases only
  · rw [kind] at jump
    cases jump
  · exact absurd kind part.kind.2.2.2.2

/-- What must throw does not complete normally, by induction on the subtree. -/
theorem not_runs_of_mustThrow {node : Subtree} (plain : node.WithoutFlowFacts)
    (throws : node.mustThrow)
    : ¬Runs (.node node) .normal := by
  induction node using Subtree.induction with
  | step node ih =>
      intro run
      rcases mustThrow_cases plain throws with kind | ⟨kind, child, member, statement, inner⟩
      · cases thrown_of_throw kind run
      · have block := row_of_block kind (by decide) run
        have among : child ∈ node.children.filter (·.kind.isExecuted) :=
          List.mem_filter.mpr ⟨member, by simp [NodeKind.isExecuted, statement]⟩
        exact ih child member (plain.child member) inner (block.normal_of_mem among)

/-- A part that runs to its end, if it is there, is one that the walk lets complete. -/
theorem all_mayComplete {part : Option Subtree} (run : Runs (.row part.toList) .normal)
    (sound : ∀ node, part = some node → Runs (.node node) .normal → node.mayComplete)
    : part.all mayComplete := by
  rcases Runs.toList_iff.mp run with ⟨missing, _⟩ | ⟨node, found, inside⟩
  · rw [missing]
    rfl
  · rw [found, Option.all_some]
    exact sound node found inside

/-- The walk is right about a loop that completes if it is right about the body, unless it misses
a `continue`.
-/
theorem mayComplete_of_loop {node : Subtree} (plain : node.WithoutFlowFacts)
    (clear : ¬node.Misjudged) (loop : node.kind.isLoop)
    (sound : ∀ child ∈ node.children, Runs (.node child) .normal → child.mayComplete)
    (run : Runs (.node node) .normal)
    : node.mayComplete := by
  rcases run.loop_cases loop with thrown | ⟨iteration, inside, leaves⟩ | ⟨_, fails, behind⟩
  · cases thrown
  · -- The only iteration that a loop completes behind is one with a `break`.
    cases iteration <;> simp [Outcome.leaving?] at leaves
    obtain ⟨body, member, broken⟩ := inside.abrupt_mem (by decide)
    have below := body?_mem (Option.mem_toList.mp member)
    have breaks : node.hasBreak := hasBreak_iff.mpr ⟨body, below, broken.handsBreak⟩
    rw [mayComplete_eq plain]
    cases kind : node.kind <;> simp [kind, NodeKind.isLoop] at loop <;> simp [breaks]
  · have open' := mayFail_iff.mp fails
    by_cases kind : node.kind = .doWhileStatement
    · obtain ⟨iteration, inside, stays⟩ := behind kind
      cases iteration <;> simp [Outcome.staysInLoop] at stays
      · have body := all_mayComplete inside fun child found =>
          sound child (body?_mem found)
        rw [mayComplete_eq plain, kind]
        simp [body, open']
      · cases denied : node.mayComplete with
        | true => rfl
        | false => exact absurd (Or.inl ⟨kind, fails, inside, denied⟩) clear
    · rw [mayComplete_eq plain]
      cases other : node.kind <;> simp [other, NodeKind.isLoop] at loop kind <;> simp [open']

/-- The walk is right about what enters a row that completes if it is right about the parts,
unless it mistakes a branch.
-/
theorem mayComplete_of_enters {node : Subtree} {row : List Subtree} (plain : node.WithoutFlowFacts)
    (clear : ¬node.Misjudged)
    (sound : ∀ child ∈ node.children, Runs (.node child) .normal → child.mayComplete)
    (part : node.Enters row) (inside : Runs (.row row) .normal)
    : node.mayComplete := by
  cases part with
  | block kind =>
      have all : node.children.all fun child => !child.kind.isStatement || child.mayComplete := by
        refine List.all_eq_true.mpr fun child member => ?_
        by_cases statement : child.kind.isStatement
        · have among : child ∈ node.children.filter (·.kind.isExecuted) :=
            List.mem_filter.mpr ⟨member, by simp [NodeKind.isExecuted, statement]⟩
          simp [sound child member (inside.normal_of_mem among)]
        · simp [statement]
      rw [mayComplete_eq plain]
      rcases kind with kind | kind <;> rw [kind] <;> exact all
  | expression kind =>
      rw [mayComplete_eq plain, kind]
      simp only [Bool.not_eq_true', List.any_eq_false]
      exact fun child member throws =>
        not_runs_of_mustThrow (plain.child member) throws (inside.normal_of_mem member)
  | guarded kind =>
      rw [mayComplete_eq plain, kind]
      exact all_mayComplete inside fun child found => sound child (body?_mem found)
  | taken kind =>
      by_cases same : node.thenBranch? = node.body?
      · rw [same] at inside
        have body := all_mayComplete inside fun child found => sound child (body?_mem found)
        rw [mayComplete_eq plain, kind]
        cases node.childWithRole? .otherwise <;> simp [body]
      · cases denied : node.mayComplete with
        | true => rfl
        | false => exact absurd (Or.inr ⟨kind, same, inside, denied⟩) clear
  | declined kind fails =>
      rw [mayComplete_eq plain, kind]
      cases found : node.childWithRole? .otherwise with
      | none => rfl
      | some otherwise =>
          rw [found] at inside
          have completes := sound otherwise (List.mem_of_find?_eq_some found)
            (inside.normal_of_mem (by simp))
          simp [completes]

/-- Where the walk goes wrong at no node, it lets all complete that completes in some execution, by
induction on the subtree.
-/
theorem mayComplete_of_runs {node : Subtree} (plain : node.WithoutFlowFacts)
    (clear : ∀ inner ∈ node.nodes, ¬inner.Misjudged) (run : Runs (.node node) .normal)
    : node.mayComplete := by
  induction node using Subtree.induction with
  | step node ih =>
      have sound : ∀ child ∈ node.children, Runs (.node child) .normal → child.mayComplete :=
        fun child member => ih child member (plain.child member) fun inner inside =>
          clear inner (mem_nodes_iff.mpr (Or.inr ⟨child, member, inside⟩))
      have here := clear node (self_mem_nodes node)
      by_cases loop : node.kind.isLoop
      · exact mayComplete_of_loop plain here loop sound run
      · rcases run.straight_cases loop with thrown | ⟨only, _⟩ | jump | ⟨row, part, inside⟩
        · cases thrown
        · rw [mayComplete_eq plain]
          cases kind : node.kind <;> simp [kind, NodeKind.isEvaluated, NodeKind.isExecuted,
            NodeKind.isStatement] at only ⊢
        · cases kind : node.kind <;> simp [kind, NodeKind.jump?] at jump
        · exact mayComplete_of_enters plain here sound part inside

/-- A loop that the walk denies and that has no `return` is left by throwing alone. -/
theorem thrown_of_loop {node : Subtree} (plain : node.WithoutFlowFacts)
    (clear : ∀ inner ∈ node.nodes, ¬inner.Misjudged) (loop : node.kind.isLoop)
    (denied : node.mayComplete = false) (noReturn : node.hasReturn = false) {outcome : Outcome}
    (run : Runs (.node node) outcome)
    : outcome = .thrown := by
  cases outcome with
  | thrown => rfl
  | normal =>
      rw [mayComplete_of_runs plain clear run] at denied
      cases denied
  | returned =>
      rcases run.handsReturn with kind | ⟨_, found⟩
      · rw [kind] at loop
        cases loop
      · rw [noReturn] at found
        cases found
  | broken =>
      rcases run.handsBreak with kind | ⟨_, other, _⟩
      · rw [kind] at loop
        cases loop
      · rw [loop] at other
        cases other
  | continued =>
      rcases run.loop_cases loop with thrown | ⟨iteration, _, leaves⟩ | ⟨normal, _⟩
      · cases thrown
      · cases iteration <;> cases leaves
      · cases normal

/-- A method that must throw has a body that no execution completes, and none returns from it unless
the body is a `return` itself and not a block.
-/
theorem body_of_methodMustThrow {method : Subtree} (plain : method.WithoutFlowFacts)
    (clear : ∀ inner ∈ method.nodes, ¬inner.Misjudged) (throws : method.methodMustThrow)
    : ∃ body,
        method.body? = some body
        ∧ ¬Runs (.node body) .normal
        ∧ (Runs (.node body) .returned → body.kind = .returnStatement) := by
  rw [methodMustThrow, (plain method (self_mem_nodes method)).2, Option.getD_none] at throws
  cases found : method.body? with
  | none =>
      rw [found] at throws
      cases throws
  | some body =>
      rw [found] at throws
      simp only [Bool.and_eq_true, Bool.not_eq_true'] at throws
      obtain ⟨noReturn, denied⟩ := throws
      have member := body?_mem found
      refine ⟨body, rfl, fun run => ?_, fun run => ?_⟩
      · have completes := mayComplete_of_runs (plain.child member)
          (fun inner inside => clear inner (mem_nodes_iff.mpr (Or.inr ⟨body, member, inside⟩))) run
        rw [denied] at completes
        cases completes
      · rcases run.handsReturn with kind | ⟨_, found⟩
        · exact kind
        · rw [noReturn] at found
          cases found

end TreeLint.Subtree
