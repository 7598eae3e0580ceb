import Mathlib.Data.Nat.Find
import TreeLint.Proofs.Rule.Anchors

/-! Passes that somebody may stop. A rule is asked whether to go on before each child that it walks,
and reports at the nodes around a walk that was stopped all the same. What it reports is part of
what it reports when nobody stops it, and unless its flag is set in the end, all of that.
-/

namespace TreeLint

-----------------------------------------------------------------------------------------
-- Histories of a flag
-----------------------------------------------------------------------------------------

namespace CancelFlag

/-- The flag after it was asked a number of times. -/
def afterAsked (flag : CancelFlag) : Nat → CancelFlag
  | 0 => flag
  | count + 1 => flag.ask.2.afterAsked count

/-- A flag that is set stays as it is, by induction on the number of questions. -/
theorem afterAsked_of_isSet {flag : CancelFlag} (isSet : flag.isSet = true) (count : Nat)
    : flag.afterAsked count = flag := by
  induction count with
  | zero => rfl
  | succ count ih => rw [afterAsked, ask_of_isSet isSet, ih]

/-- The answer of a flag with some patience is yes as soon as that is used up, by induction on the
number of questions.
-/
theorem ask_afterAsked (patience count : Nat)
    : (afterAsked { patience := some patience } count).ask.1 = decide (patience ≤ count) := by
  induction count generalizing patience with
  | zero => cases patience <;> rfl
  | succ count ih =>
      cases patience with
      | zero =>
          have isSet : (set { patience := some 0 }).isSet = true := rfl
          have asked : ask { patience := some 0 } = (true, set { patience := some 0 }) := rfl
          rw [afterAsked, asked, afterAsked_of_isSet isSet, ask_of_isSet isSet]
          rfl
      | succ patience =>
          have asked : ask { patience := some (patience + 1) }
              = (false, { patience := some patience }) := rfl
          rw [afterAsked, asked, ih]
          simp

/-- Every history of answers that stay yes from some question on, if they ever are, is the history
of a flag.
-/
theorem exists_of_history (history : Nat → Bool)
    (stays : ∀ count, history count = true → history (count + 1) = true)
    : ∃ flag : CancelFlag, ∀ count, (flag.afterAsked count).ask.1 = history count := by
  by_cases ever : ∃ count, history count = true
  · refine ⟨{ patience := some (Nat.find ever) }, fun count => ?_⟩
    rw [ask_afterAsked, Bool.eq_iff_iff, decide_eq_true_iff]
    refine ⟨fun late => ?_, Nat.find_min' ever⟩
    exact Nat.le_induction (Nat.find_spec ever) (fun count _ => stays count) count late
  · refine ⟨{ }, fun count => ?_⟩
    have never : history count = false := Bool.eq_false_iff.mpr fun set => ever ⟨count, set⟩
    have idle : (afterAsked { } count).ask.1 = false := by
      induction count with
      | zero => rfl
      | succ count ih => exact ih (Bool.eq_false_iff.mpr fun set => ever ⟨count, set⟩)
    rw [idle, never]

end CancelFlag

-----------------------------------------------------------------------------------------
-- Steps of a pass
-----------------------------------------------------------------------------------------

namespace PassState

/-- The pass was told to stop. -/
def Stopped (state : PassState) : Prop :=
  ∃ held ∈ state.flag, held.isSet = true

/-- A pass came from one state to another without breaking down, and some diagnostics were due. It
has reported part of them, and unless it was told to stop, all of them.
-/
structure Advance (due : List Diagnostic) (before after : PassState) : Prop where
  whole : after.breakdown = none
  reported : ∃ part, part.Sublist due ∧ after.reported = before.reported ++ part
    ∧ (part = due ∨ after.Stopped)
  stays : before.Stopped → after.Stopped

theorem Advance.refl {state : PassState} (whole : state.breakdown = none)
    : Advance [] state state where
  whole := whole
  reported := ⟨[], .slnil, (List.append_nil _).symm, .inl rfl⟩
  stays stopped := stopped

theorem Advance.trans {first second : List Diagnostic} {before middle after : PassState}
    (start : Advance first before middle) (rest : Advance second middle after)
    : Advance (first ++ second) before after where
  whole := rest.whole
  reported := by
    obtain ⟨early, earlySublist, middleReported, earlyAll⟩ := start.reported
    obtain ⟨late, lateSublist, afterReported, lateAll⟩ := rest.reported
    refine ⟨early ++ late, earlySublist.append lateSublist, ?_, ?_⟩
    · rw [afterReported, middleReported, List.append_assoc]
    · rcases earlyAll with rfl | stopped
      · exact lateAll.imp (congrArg (early ++ ·)) id
      · exact .inr (rest.stays stopped)
  stays stopped := rest.stays (start.stays stopped)

/-- Once a pass was told to stop, nothing more needs to be reported. -/
theorem Advance.cut {due more : List Diagnostic} {before after : PassState}
    (advance : Advance due before after) (stopped : after.Stopped)
    : Advance (due ++ more) before after where
  whole := advance.whole
  reported := by
    obtain ⟨part, sublist, reported, _⟩ := advance.reported
    exact ⟨part, sublist.trans (List.sublist_append_left due more), reported, .inr stopped⟩
  stays := advance.stays

/-- The question whether to go on reports nothing, and the answer is no only to a pass that was told
to stop.
-/
theorem Advance.asked {state : PassState} (whole : state.breakdown = none)
    : Advance [] state state.goesOn.2
      ∧ (state.goesOn.1 = false → state.goesOn.2.Stopped) := by
  obtain ⟨reported, flag, breakdown⟩ := state
  cases whole
  cases flag with
  | none => exact ⟨.refl rfl, fun ends => absurd ends (by simp [goesOn])⟩
  | some held =>
      refine ⟨⟨rfl, ⟨[], .slnil, (List.append_nil _).symm, .inl rfl⟩, ?_⟩, fun ends => ?_⟩
      · rintro ⟨_, ⟨⟩, isSet⟩
        refine ⟨held.ask.2, rfl, ?_⟩
        rwa [CancelFlag.ask_of_isSet isSet]
      · refine ⟨held.ask.2, rfl, ?_⟩
        rw [CancelFlag.isSet_ask]
        simpa [goesOn] using ends

end PassState

-----------------------------------------------------------------------------------------
-- Walks of a rule
-----------------------------------------------------------------------------------------

namespace Checker

open PassState

/-- The diagnostics of a rule for some nodes. -/
def diagnoses (checker : Checker) (context : PassContext) (anchors : List Subtree)
    : List Diagnostic :=
  anchors.map fun anchor =>
    checker.profile.diagnose context anchor (checker.message context.tree anchor)

theorem diagnoses_append (checker : Checker) (context : PassContext)
    (first second : List Subtree)
    : checker.diagnoses context (first ++ second)
      = checker.diagnoses context first ++ checker.diagnoses context second :=
  List.map_append

/-- Reporting some nodes adds all that is due for them. -/
theorem report_advance (checker : Checker) (context : PassContext) (anchors : List Subtree)
    {state : PassState} (whole : state.breakdown = none)
    : Advance (checker.diagnoses context anchors) state
        (checker.report context anchors state) := by
  rw [report_eq]
  exact ⟨whole, ⟨_, .refl _, rfl, .inl rfl⟩, id⟩

/-- A walk of several nodes advances as the visits of them do, and keeps the surroundings as these
do, by induction on the nodes.
-/
private theorem walk_advance {checker : Checker} {context : PassContext} {nodes : List Subtree}
    (each : ∀ node ∈ nodes, ∀ progress : Progress,
      progress.pass.breakdown = none
      → Advance (checker.diagnoses context (checker.found context node progress.around))
          progress.pass ((checker.visitor context).visit node progress).pass
        ∧ ((checker.visitor context).visit node progress).around = progress.around)
    {progress : Progress} (whole : progress.pass.breakdown = none)
    : Advance
          (checker.diagnoses context
            (nodes.flatMap fun node => checker.found context node progress.around))
          progress.pass ((checker.visitor context).walk nodes progress).pass
      ∧ ((checker.visitor context).walk nodes progress).around = progress.around := by
  induction nodes generalizing progress with
  | nil => exact ⟨.refl whole, rfl⟩
  | cons node rest ih =>
      obtain ⟨asked, ends⟩ := Advance.asked whole
      rw [walk_cons]
      split
      · obtain ⟨visited, kept⟩ := each node List.mem_cons_self
          { progress with pass := progress.pass.goesOn.2 } asked.whole
        obtain ⟨walked, keptToo⟩ := ih
          (fun other later => each other (List.mem_cons_of_mem node later)) visited.whole
        rw [kept] at walked keptToo
        rw [List.flatMap_cons, diagnoses_append]
        exact ⟨asked.trans (visited.trans walked), keptToo⟩
      · next answer =>
          exact ⟨asked.cut (ends (Bool.eq_false_iff.mpr answer)), rfl⟩

/-- The visit of a node reports part of what the walk finds there, and unless it is told to stop,
all of it, by induction on the subtree.
-/
theorem visit_advance (checker : Checker) (context : PassContext) (node : Subtree)
    {progress : Progress} (whole : progress.pass.breakdown = none)
    : Advance (checker.diagnoses context (checker.found context node progress.around))
          progress.pass ((checker.visitor context).visit node progress).pass
      ∧ ((checker.visitor context).visit node progress).around = progress.around := by
  induction node using Subtree.induction generalizing progress with
  | step node ih =>
      have walked {state : Progress} (whole : state.pass.breakdown = none) :=
        walk_advance (fun child member _ => ih child member) whole
      rw [Visitor.visit_eq, actionFor_visitor, found_eq, stepAt]
      cases reacts : checker.reactionFor? context node.kind with
      | none =>
          simp only [Option.map_none, Option.getD_none, Step.walk, Option.elim_some,
            List.append_nil]
          exact walked whole
      | some reaction =>
          simp only [Option.map_some, Option.getD_some, act, and_true]
          rw [diagnoses_append]
          cases (reaction progress.around node).below with
          | none => exact (Advance.refl whole).trans (report_advance checker context _ whole)
          | some around =>
              have inner := (@walked { progress with around } whole).1
              exact inner.trans (report_advance checker context _ inner.whole)

/-- A run reports part of what the walk finds, and unless it is told to stop, all of it. -/
theorem run_advance (checker : Checker) (context : PassContext) (root : Subtree)
    (flag : Option CancelFlag)
    : Advance (checker.diagnoses context (checker.found context root { })) { flag }
        (checker.run context root flag) :=
  (@visit_advance checker context root { pass := { flag } } rfl).1

end Checker

-----------------------------------------------------------------------------------------
-- Passes of a rule
-----------------------------------------------------------------------------------------

/-- What a pass did is part of what came of the pass as a whole, and unless it was told to stop, all
of it.
-/
structure PassState.PartOf (state whole : PassState) : Prop where
  breakdown : state.breakdown = whole.breakdown
  reported : state.reported.Sublist whole.reported
  complete : state.reported = whole.reported ∨ state.Stopped

namespace Rule

/-- A pass whose flag nobody sets keeps the flag as it is, also where it breaks down. -/
theorem inspectScope_flag (rule : Rule) (context : PassContext)
    : (Inspection.inspectScope rule context (some { })).flag = some { } := by
  rw [Inspection.inspectScope]
  split
  · split
    · next root _ => exact (rule.checker.run_calm context root).1
    · rfl
  · rfl

/-- Whoever sets the flag of a pass and whenever, the pass reports part of what it reports when
nobody does.
-/
theorem inspectScope_partOf (rule : Rule) (context : PassContext) (flag : Option CancelFlag)
    : (Inspection.inspectScope rule context flag).PartOf
        (Inspection.inspectScope rule context (some { })) := by
  have idle : ∀ held ∈ some ({ } : CancelFlag), held = { } := by simp
  simp only [Inspection.inspectScope]
  split
  · split
    · next root _ =>
        obtain ⟨whole, ⟨part, sublist, reported, complete⟩, _⟩ :=
          rule.checker.run_advance context root flag
        change (rule.checker.run context root flag).PartOf (rule.checker.run context root _)
        rw [rule.checker.run_eq context root idle]
        rw [List.nil_append] at reported
        exact ⟨whole, reported ▸ sublist, complete.imp reported.trans id⟩
    · exact ⟨rfl, .refl _, .inl rfl⟩
  · exact ⟨rfl, .refl _, .inl rfl⟩

/-- Whoever sets the flag of passes over some scopes and whenever, they report part of what they
report without a flag, by induction on the scopes.
-/
theorem inspectScopes_sublist (rule : Rule) {tree : Tree} (linked : tree.Linked)
    (options : PassOptions) (scopes : List Scope) (flag : Option CancelFlag)
    : (Inspection.inspectScopes rule tree options scopes flag).reported.Sublist
        (Inspection.inspectScopes rule tree options scopes none).reported := by
  have calm : ∀ held ∈ some ({ } : CancelFlag), held = { } := by simp
  have idle : ∀ held ∈ (none : Option CancelFlag), held = { } := by simp
  induction scopes generalizing flag with
  | nil => exact .refl _
  | cons scope rest ih =>
      have first := (rule.inspectScope_partOf { tree, scope, options } flag).reported
      have later := ih (Inspection.inspectScope rule { tree, scope, options } flag).flag
      rw [rule.inspectScope_eq linked calm] at first
      rw [rule.inspectScopes_eq linked options rest idle] at later
      rw [rule.inspectScopes_eq linked options (scope :: rest) idle, List.flatMap_cons,
        Inspection.inspectScopes]
      split
      · exact first.trans (List.sublist_append_left _ _)
      · exact first.append later

/-- What a run over a tree reports it reports also if nobody may stop it. -/
theorem reported_undisturbed (rule : Rule) {tree : Tree} (linked : tree.Linked)
    {options : PassOptions} {flag : Option CancelFlag} {diagnostic : Diagnostic}
    (reported : diagnostic ∈ (Inspection.inspectTree rule tree options flag).reported)
    : diagnostic ∈ (Inspection.inspectTree rule tree options none).reported :=
  (rule.inspectScopes_sublist linked options _ flag).mem reported

end Rule

end TreeLint
