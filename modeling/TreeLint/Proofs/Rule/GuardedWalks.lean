import TreeLint.Proofs.Fix.NumberedNames
import TreeLint.Proofs.Restorable.Unwinding
import TreeLint.Proofs.Rule.Locks

/-! Walks that keep what they know of the code around a node in a value that can be put back. At
some nodes the surroundings of the children are entered, and the guard is given up when the children
are done, also where the walk stops early. Main result: such a walk does what the one does that
hands the surroundings down, and its guards are well nested, so each of them brings back what was
before it.
-/

namespace TreeLint

-----------------------------------------------------------------------------------------
-- Guards that are numbered
-----------------------------------------------------------------------------------------

def guardName (number : Nat) : String :=
  "guard" ++ toString number

/-- The names of so many guards, newest first. -/
def guardNames (count : Nat) : List String :=
  ((List.range count).map guardName).reverse

theorem guardNames_succ (count : Nat)
    : guardNames (count + 1) = guardName count :: guardNames count := by
  rw [guardNames, List.range_succ, List.map_append, List.reverse_append]
  rfl

theorem guardName_not_mem (count : Nat) : guardName count ∉ guardNames count := by
  rw [guardNames, List.mem_reverse, List.mem_map]
  rintro ⟨number, inside, same⟩
  rw [numbered_inj.mp same] at inside
  exact List.not_mem_range_self inside

/-- Guards that are numbered have different names, by induction on their number. -/
theorem nodup_guardNames (count : Nat) : (guardNames count).Nodup := by
  induction count with
  | zero => exact List.nodup_nil
  | succ count ih =>
      rw [guardNames_succ]
      exact List.nodup_cons.mpr ⟨guardName_not_mem count, ih⟩

/-- A guard that is given up at once leaves all as it was. -/
theorem Restorable.leave_enter {cell : Restorable α} {name : String} (distinct : cell.held.Nodup)
    (fresh : name ∉ cell.held) (value : α)
    : (cell.enter name value).leave name = cell := by
  have entered := enter_of_not_held fresh value
  rw [leave_of_newest (entered ▸ List.nodup_cons.mpr ⟨fresh, distinct⟩)
    (congrArg Restorable.guards entered)]

namespace Checker

-----------------------------------------------------------------------------------------
-- Walks under guards
-----------------------------------------------------------------------------------------

/-- A walk as far as it has come, with what happened to its value. -/
structure Guarded where
  pass : PassState
  history : List (Restorable.Action Surroundings) := []

namespace Guarded

/-- The value as its history leaves it. First of all, nothing is known of the code around. -/
def cell (state : Guarded) : Restorable Surroundings :=
  Restorable.after { value := { } } state.history

def act (state : Guarded) (action : Restorable.Action Surroundings) : Guarded :=
  { state with history := state.history ++ [action] }

/-- As far as a walk has come that hands the surroundings down. -/
def progress (state : Guarded) : Progress where
  pass := state.pass
  around := state.cell.value

theorem cell_act (state : Guarded) (action : Restorable.Action Surroundings)
    : (state.act action).cell = state.cell.step action :=
  Restorable.after_append _ state.history [action]

end Guarded

variable {checker : Checker} {context : PassContext} {guards : Subtree → Bool}

/-- Does at a node what the rule says, under a guard where the node takes one. What is reported
depends on what is known once the children are done.
-/
def actGuarded (checker : Checker) (guards : Subtree → Bool) (context : PassContext)
    (reaction : Reaction)
    : Action Guarded :=
  fun node walk state =>
    let walked :=
      match (reaction state.cell.value node).below with
      | none => state
      | some around =>
          if guards node then
            let name := guardName state.cell.guards.length
            (walk (state.act (.enter name around))).act (.leave name)
          else
            walk state
    { walked with
        pass :=
          checker.report context (reaction walked.cell.value node).reports walked.pass }

def guardedVisitor (checker : Checker) (guards : Subtree → Bool) (context : PassContext)
    : Visitor Guarded where
  goesOn state :=
    let (goesOn, pass) := state.pass.goesOn
    (goesOn, { state with pass })
  action? callback :=
    (checker.reaction? context.tree context.scope callback).map
      (checker.actGuarded guards context)

/-- Only at nodes that take a guard do the children have other surroundings than the node. -/
def ChangesUnder (checker : Checker) (guards : Subtree → Bool) (context : PassContext) : Prop :=
  ∀ around node below,
    (checker.stepAt context around node).below = some below → guards node = false → below = around

theorem actionFor_guardedVisitor (checker : Checker) (guards : Subtree → Bool)
    (context : PassContext) (kind : NodeKind)
    : (checker.guardedVisitor guards context).actionFor kind
      = ((checker.reactionFor? context kind).map (checker.actGuarded guards context)).getD
          fun _ walk => walk := by
  rw [Visitor.actionFor, reactionFor?, List.map_findSome?]
  rfl

/-- Walking further children visits the first of them, unless the pass does not go on. -/
theorem walk_cons_guarded (checker : Checker) (guards : Subtree → Bool) (context : PassContext)
    (node : Subtree) (rest : List Subtree) (state : Guarded)
    : (checker.guardedVisitor guards context).walk (node :: rest) state
      = if state.pass.goesOn.1 then
          (checker.guardedVisitor guards context).walk rest
            ((checker.guardedVisitor guards context).visit node
              { state with pass := state.pass.goesOn.2 })
        else
          { state with pass := state.pass.goesOn.2 } := by
  have asked : (checker.guardedVisitor guards context).goesOn state
      = (state.pass.goesOn.1, { state with pass := state.pass.goesOn.2 }) := rfl
  rw [Visitor.walk, asked]
  cases state.pass.goesOn.1 <;> rfl

-----------------------------------------------------------------------------------------
-- What guards bring back
-----------------------------------------------------------------------------------------

namespace Guarded

/-- The guards that are held are numbered. -/
def Numbered (state : Guarded) : Prop :=
  state.cell.held = guardNames state.cell.guards.length

/-- From the first state to the second, each guard that is taken is given up in its turn, and the
value is what it was.
-/
structure Unwinds (before after : Guarded) : Prop where
  cell : after.cell = before.cell
  history
    : ∃ inside,
        after.history = before.history ++ inside
        ∧ inside.foldlM Restorable.stillHeld? before.cell.held = some before.cell.held

variable {before after last : Guarded}

theorem Unwinds.refl (state : Guarded) (pass : PassState)
    : state.Unwinds { state with pass } where
  cell := rfl
  history := ⟨[], (List.append_nil _).symm, rfl⟩

theorem Unwinds.trans (first : before.Unwinds after) (second : after.Unwinds last)
    : before.Unwinds last where
  cell := second.cell.trans first.cell
  history := by
    obtain ⟨early, told, earlyNested⟩ := first.history
    obtain ⟨late, toldLate, lateNested⟩ := second.history
    refine ⟨early ++ late, by rw [toldLate, told, List.append_assoc], ?_⟩
    rw [first.cell] at lateNested
    rw [List.foldlM_append, earlyNested]
    exact lateNested

theorem Numbered.of_unwinds (numbered : before.Numbered) (unwinds : before.Unwinds after)
    : after.Numbered := by
  rwa [Numbered, unwinds.cell]

theorem Numbered.fresh (numbered : before.Numbered)
    : guardName before.cell.guards.length ∉ before.cell.held :=
  numbered ▸ guardName_not_mem _

/-- The guard that is taken next has the next number. -/
theorem Numbered.enter (numbered : before.Numbered) (around : Surroundings)
    : (before.act (.enter (guardName before.cell.guards.length) around)).Numbered := by
  rw [Numbered, cell_act, Restorable.step, Restorable.enter_of_not_held numbered.fresh,
    List.length_cons, guardNames_succ, ← numbered]
  rfl

/-- What unwinds under a guard unwinds as a whole when the guard is given up. -/
theorem Unwinds.underGuard (numbered : before.Numbered) {around : Surroundings}
    (inner :
      (before.act (.enter (guardName before.cell.guards.length) around)).Unwinds after)
    : before.Unwinds (after.act (.leave (guardName before.cell.guards.length))) where
  cell := by
    rw [cell_act, inner.cell, cell_act]
    exact Restorable.leave_enter (numbered ▸ nodup_guardNames _) numbered.fresh around
  history := by
    obtain ⟨inside, told, nested⟩ := inner.history
    refine ⟨.enter (guardName before.cell.guards.length) around :: inside
      ++ [.leave (guardName before.cell.guards.length)], ?_, ?_⟩
    · rw [act, told, act]
      simp
    · have opened
          : (before.act (.enter (guardName before.cell.guards.length) around)).cell.held
            = guardName before.cell.guards.length :: before.cell.held := by
        rw [cell_act, Restorable.step, Restorable.enter_of_not_held numbered.fresh]
        rfl
      rw [opened] at nested
      rw [List.cons_append, List.foldlM_cons, Restorable.stillHeld?, if_neg numbered.fresh]
      simp [List.foldlM_append, nested, Restorable.stillHeld?]

theorem Numbered.progress_enter (numbered : before.Numbered) (around : Surroundings)
    : (before.act (.enter (guardName before.cell.guards.length) around)).progress
      = { before.progress with around } := by
  rw [progress, cell_act, Restorable.step, Restorable.enter_of_not_held numbered.fresh]
  rfl

/-- What is reported when the children are done is what was due when the node was entered. -/
theorem Unwinds.reporting (unwinds : before.Unwinds after) (reaction : Reaction) (node : Subtree)
    : let reported : Guarded :=
        { after with
            pass :=
              checker.report context (reaction after.cell.value node).reports after.pass }
      before.Unwinds reported
      ∧ ({ before.progress with
            pass :=
              checker.report context (reaction before.progress.around node).reports after.pass }
          : Progress)
        = reported.progress := by
  refine ⟨unwinds.trans (.refl after _), ?_⟩
  exact congrArg₂ Progress.mk (by rw [unwinds.cell]; rfl)
    (congrArg Restorable.value unwinds.cell.symm)

end Guarded

open Guarded

/-- A walk of several nodes unwinds and does what the other one does, if each visit does, by
induction on the nodes.
-/
private theorem walk_guarded {nodes : List Subtree}
    (each : ∀ node ∈ nodes, ∀ state : Guarded,
      state.Numbered
      → state.Unwinds ((checker.guardedVisitor guards context).visit node state)
        ∧ (checker.visitor context).visit node state.progress
          = ((checker.guardedVisitor guards context).visit node state).progress)
    {state : Guarded} (numbered : state.Numbered)
    : state.Unwinds ((checker.guardedVisitor guards context).walk nodes state)
      ∧ (checker.visitor context).walk nodes state.progress
        = ((checker.guardedVisitor guards context).walk nodes state).progress := by
  induction nodes generalizing state with
  | nil => exact ⟨.refl state state.pass, rfl⟩
  | cons node rest ih =>
      let next : Guarded := { state with pass := state.pass.goesOn.2 }
      have asked : state.Unwinds next := .refl state state.pass.goesOn.2
      have plain : (checker.visitor context).walk (node :: rest) state.progress
          = if state.pass.goesOn.1 then
              (checker.visitor context).walk rest
                ((checker.visitor context).visit node next.progress)
            else
              next.progress :=
        walk_cons checker context node rest state.progress
      rw [plain, walk_cons_guarded]
      split
      · obtain ⟨first, same⟩ := each node List.mem_cons_self next (numbered.of_unwinds asked)
        obtain ⟨others, sameOthers⟩ := ih (fun other later => each other (.tail node later))
          ((numbered.of_unwinds asked).of_unwinds first)
        rw [same, sameOthers]
        exact ⟨asked.trans (first.trans others), rfl⟩
      · exact ⟨asked, rfl⟩

/-- What a rule does at a node unwinds and is what it does without guards, if the walk of the
children does.
-/
private theorem act_guarded {reaction : Reaction} {node : Subtree}
    (changes : ∀ around below,
      (reaction around node).below = some below → guards node = false → below = around)
    {guarded : Guarded → Guarded} {walk : Progress → Progress}
    (walked : ∀ state : Guarded,
      state.Numbered
      → state.Unwinds (guarded state) ∧ walk state.progress = (guarded state).progress)
    {state : Guarded} (numbered : state.Numbered)
    : state.Unwinds (checker.actGuarded guards context reaction node guarded state)
      ∧ checker.act context reaction node walk state.progress
        = (checker.actGuarded guards context reaction node guarded state).progress := by
  simp only [act, actGuarded]
  -- The other walk looks at the same value.
  cases below : (reaction state.cell.value node).below with
  | none =>
      have plain : (reaction state.progress.around node).below = none := below
      have idle : state.Unwinds state := .refl state state.pass
      simp only [plain]
      exact idle.reporting reaction node
  | some around =>
      have plain : (reaction state.progress.around node).below = some around := below
      simp only [plain]
      by_cases takes : guards node = true
      · obtain ⟨inner, same⟩ := walked _ (numbered.enter around)
        rw [numbered.progress_enter] at same
        rw [if_pos takes, same]
        exact (inner.underGuard numbered).reporting reaction node
      · obtain rfl := changes state.cell.value around below (Bool.eq_false_iff.mpr takes)
        obtain ⟨inner, same⟩ := walked state numbered
        rw [progress] at same
        rw [if_neg takes, progress, same]
        exact inner.reporting reaction node

/-- A visit under guards unwinds and does what the other one does, by induction on the subtree. -/
theorem visit_guarded (changes : checker.ChangesUnder guards context) (node : Subtree)
    {state : Guarded} (numbered : state.Numbered)
    : state.Unwinds ((checker.guardedVisitor guards context).visit node state)
      ∧ (checker.visitor context).visit node state.progress
        = ((checker.guardedVisitor guards context).visit node state).progress := by
  induction node using Subtree.induction generalizing state with
  | step node ih =>
      have walked (state : Guarded) (numbered : state.Numbered) :=
        walk_guarded (fun child member state => ih child member) numbered
      rw [Visitor.visit_eq, Visitor.visit_eq, actionFor_visitor, actionFor_guardedVisitor]
      cases reacts : checker.reactionFor? context node.kind with
      | none => exact walked state numbered
      | some reaction =>
          refine act_guarded (fun around below isBelow => ?_) walked numbered
          refine changes around node below ?_
          rw [stepAt, reacts]
          exact isBelow

/-- A rule that keeps its surroundings under guards reports what the rule does that hands them down,
whoever stops it. Its guards are well nested and all given up, and each of them brings back what was
before it was taken.
-/
theorem run_guarded (changes : checker.ChangesUnder guards context) (root : Subtree)
    (flag : Option CancelFlag)
    : let after := (checker.guardedVisitor guards context).visit root { pass := { flag } }
      let left (history : List (Restorable.Action Surroundings)) : Restorable Surroundings :=
        Restorable.after { value := { } } history
      after.pass = checker.run context root flag
      ∧ Restorable.Balanced after.history
      ∧ ∀ earlier name around inside later,
          after.history = earlier ++ (.enter name around :: inside) ++ (.leave name :: later)
          → .leave name ∉ inside
          → left (earlier ++ (.enter name around :: inside) ++ [.leave name]) = left earlier := by
  intro after left
  have numbered : Numbered { pass := { flag } } := rfl
  obtain ⟨unwinds, same⟩ := visit_guarded changes root numbered
  obtain ⟨inside, told, nested⟩ := unwinds.history
  have balanced : Restorable.Balanced after.history := by
    rw [told]
    exact nested
  refine ⟨congrArg Progress.pass same.symm, balanced, ?_⟩
  intro earlier name around inside later isHistory untouched
  have wellNested : Restorable.WellNested after.history := by
    rw [Restorable.WellNested, balanced]
    rfl
  rw [isHistory] at wellNested
  obtain ⟨_, ended⟩ := Restorable.after_enter { } wellNested untouched
  have opened : left (earlier ++ (.enter name around :: inside) ++ [.leave name])
      = ((left earlier).after (.enter name around :: inside)).leave name := by
    simp only [left, Restorable.after_append]
    rfl
  exact opened.trans (ended rfl)

end Checker

namespace Rule

/-- The rule about exposed fields takes a guard at what decides whether code holds a lock. -/
def guardsLock (node : Subtree) : Bool :=
  [NodeKind.method, .synchronizedStatement].contains node.kind

theorem changesUnder_guardsLock (context : PassContext)
    : publicFieldAccessedInSynchronizedContext.checker.ChangesUnder guardsLock context := by
  intro around node below walks free
  rw [stepAt_locks] at walks
  split at walks
  · cases walks
  · obtain rfl := Option.some.inj walks
    have other : node.kind ≠ .method ∧ node.kind ≠ .synchronizedStatement := by
      simpa [guardsLock] using free
    rw [Subtree.surroundings, if_neg other.1, decide_eq_false other.2, Bool.false_or]

/-- With guards at methods and synchronized statements alone, the rule about exposed fields reports
the same, and all its guards are given up in their turn.
-/
theorem locks_guarded (context : PassContext) (root : Subtree) (flag : Option CancelFlag)
    : let checker := publicFieldAccessedInSynchronizedContext.checker
      let after := (checker.guardedVisitor guardsLock context).visit root { pass := { flag } }
      after.pass = checker.run context root flag ∧ Restorable.Balanced after.history := by
  intro checker after
  obtain ⟨same, balanced, _⟩ := Checker.run_guarded (changesUnder_guardsLock context) root flag
  exact ⟨same, balanced⟩

end Rule

end TreeLint
