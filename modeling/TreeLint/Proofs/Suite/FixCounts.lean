import TreeLint.Proofs.Fix.CutOffs
import TreeLint.Proofs.Suite.FixOrder

/-! What the counts of a round of fixing say. No fix asks whether its node still hangs in the tree.
Main result: the node of a fix does so at its turn exactly if no fix that was applied before has cut
it off, so a round counts nothing but fixes of attached nodes as applied exactly if each of those
that were cut off fails for another reason.
-/

namespace TreeLint

-----------------------------------------------------------------------------------------
-- Trials
-----------------------------------------------------------------------------------------

/-- A fix that is tried: that of a diagnostic, on the tree at its turn. -/
structure Trial where
  tree : Tree
  diagnostic : Diagnostic

namespace Trial

def applied (trial : Trial) : Bool :=
  (trial.diagnostic.applyFix.apply trial.tree).1.isOk

def after (trial : Trial) : Tree :=
  (trial.diagnostic.applyFix.apply trial.tree).2

/-- The node that the fix is for is attached at its turn. -/
def InPlace (trial : Trial) : Prop :=
  trial.tree.Attached trial.diagnostic.anchor

/-- The fix is applied, and the node is cut off by it. -/
def CutsOff (trial : Trial) (id : NodeId) : Prop :=
  trial.applied
  ∧ ∃ fix,
      trial.diagnostic.fix = some fix
      ∧ fix.CutsOff trial.tree trial.diagnostic.anchor id

/-- A trial leaves those nodes attached that were and that it does not cut off. -/
theorem attached_after (trial : Trial) (coherent : trial.tree.Coherent)
    : trial.after.Coherent
      ∧ trial.tree.size ≤ trial.after.size
      ∧ ∀ id < trial.tree.size,
          trial.after.Attached id ↔ trial.tree.Attached id ∧ ¬trial.CutsOff id := by
  rcases Fix.applyFix_cases coherent trial.diagnostic with
    ⟨error, failed⟩ | ⟨fix, after, offered, ends, succeeded⟩
  · have same : trial.after = trial.tree := congrArg Prod.snd failed
    have spares (id : NodeId) : ¬trial.CutsOff id := by
      rintro ⟨applied, _⟩
      rw [Trial.applied, failed] at applied
      cases applied
    rw [same]
    exact ⟨coherent, Nat.le_refl _, fun id _ => (and_iff_left (spares id)).symm⟩
  · obtain rfl : trial.after = after := congrArg Prod.snd ends
    have applied : trial.applied := by
      rw [Trial.applied, ends]
      rfl
    have pruned := Fix.applyAt_pruned coherent succeeded
    have kept := Fix.coherent_of_applyAt coherent succeeded
    refine ⟨kept, pruned.grows, fun id old => ?_⟩
    rw [pruned.attached_iff coherent kept old, CutsOff, and_iff_right applied, offered]
    simp

end Trial

/-- The trials of some diagnostics, one after the other. -/
def trials (tree : Tree) : List Diagnostic → List Trial
  | [] => []
  | diagnostic :: rest =>
      let trial : Trial := { tree, diagnostic }
      trial :: trials trial.after rest

/-- The diagnostics that are tried are those of the trials. -/
theorem trials_diagnostics (tree : Tree) (diagnostics : List Diagnostic)
    : (trials tree diagnostics).map (·.diagnostic) = diagnostics := by
  induction diagnostics generalizing tree with
  | nil => rfl
  | cons diagnostic rest ih => exact congrArg (diagnostic :: ·) (ih _)

/-- All trials are made on coherent trees. -/
theorem coherent_of_trial {diagnostics : List Diagnostic} {tree : Tree} (coherent : tree.Coherent)
    {trial : Trial} (member : trial ∈ trials tree diagnostics)
    : trial.tree.Coherent := by
  induction diagnostics generalizing tree with
  | nil => cases member
  | cons diagnostic rest ih =>
      rcases List.mem_cons.mp member with rfl | later
      · exact coherent
      · exact ih (Trial.attached_after ⟨tree, diagnostic⟩ coherent).1 later

/-- A trial is counted as applied or as skipped, and the tree is passed on. -/
theorem Trial.step_eq (trial : Trial) (offered : trial.diagnostic.fix.isSome)
    (summary : FixSummary)
    : FixSummary.step (summary, trial.tree) trial.diagnostic
      = (if trial.applied then
          { summary with applied := summary.applied + 1 }
        else
          { summary with skipped := summary.skipped + 1 },
        trial.after) := by
  rw [applied, after, FixSummary.step, if_neg (by simp [← Option.isSome_iff_ne_none, offered])]
  cases trial.diagnostic.applyFix.apply trial.tree with
  | mk answer tree => cases answer <;> rfl

/-- A round counts the trials that are applied and those that are not, by induction on the report. -/
theorem foldl_step_counts {diagnostics : List Diagnostic}
    (offered : ∀ diagnostic ∈ diagnostics, diagnostic.fix.isSome) (summary : FixSummary)
    (tree : Tree)
    : (diagnostics.foldl FixSummary.step (summary, tree)).1
      = { applied := summary.applied + (trials tree diagnostics).countP (·.applied)
          skipped := summary.skipped + (trials tree diagnostics).countP (!·.applied) } := by
  induction diagnostics generalizing summary tree with
  | nil => rfl
  | cons diagnostic rest ih =>
      have step := Trial.step_eq ⟨tree, diagnostic⟩ (offered _ List.mem_cons_self) summary
      rw [List.foldl_cons, step, ih fun other member => offered other (.tail _ member), trials]
      simp only [List.countP_cons]
      cases Trial.applied ⟨tree, diagnostic⟩ with
      | true => simp [Nat.add_assoc, Nat.add_comm 1]
      | false => simp [Nat.add_assoc, Nat.add_comm 1]

/-- A node is attached at a later turn exactly if it was and no trial before has cut it off, by
induction on the trials before.
-/
theorem attached_at_turn {diagnostics : List Diagnostic} {tree : Tree} (coherent : tree.Coherent)
    {earlier later : List Trial} {now : Trial}
    (split : trials tree diagnostics = earlier ++ now :: later) {id : NodeId}
    (old : id < tree.size)
    : now.tree.Attached id ↔ tree.Attached id ∧ ∀ cause ∈ earlier, ¬cause.CutsOff id := by
  induction earlier generalizing tree diagnostics with
  | nil =>
      cases diagnostics with
      | nil => cases split
      | cons diagnostic rest =>
          obtain rfl := (List.cons.inj split).1
          simp
  | cons first others ih =>
      cases diagnostics with
      | nil => cases split
      | cons diagnostic rest =>
          obtain ⟨rfl, behind⟩ := List.cons.inj split
          obtain ⟨kept, grows, attached⟩ := Trial.attached_after ⟨tree, diagnostic⟩ coherent
          rw [ih kept behind (Nat.lt_of_lt_of_le old grows), attached id old, List.forall_mem_cons,
            and_assoc]

-----------------------------------------------------------------------------------------
-- Rounds of fixing
-----------------------------------------------------------------------------------------

namespace Suite

/-- What a run reports with a fix is attached to the tree. -/
theorem attached_of_attempt (suite : Suite Rule) {tree : Tree} (coherent : tree.Coherent)
    {session : Session} {clock : Nat → Duration} {diagnostic : Diagnostic}
    (tried : diagnostic ∈ attempts (suite.analyze tree session clock).1.diagnostics)
    : tree.Attached diagnostic.anchor := by
  have among := (suite.anchors_analyze coherent.toLinked session clock).1.subset
    (List.mem_map_of_mem (List.mem_reverse.mp tried))
  obtain ⟨rule, isFixer, member⟩ := List.mem_flatMap.mp among
  obtain ⟨anchor, found, same⟩ := List.mem_map.mp member
  obtain ⟨root, kind, _, attached, shown, _, reported⟩ := Rule.mem_anchors_iff.mp found
  have near := Rule.reportsNear (isSome_fix_of_mem_fixers isFixer) { tree, scope := ⟨kind, root.id⟩ }
  rw [← same]
  exact (coherent.attached_iff.mpr attached).trans
    (coherent.below_of_mem_nodes shown (near.mem_nodes reported))

/-- A round counts as applied the trials that are applied, and as skipped the others. At its turn,
the node of a trial is attached exactly if no trial before it has cut it off. So all fixes that are
counted as applied are for nodes that were attached exactly if none is applied behind one that cut
its node off.
-/
theorem applied_inPlace_iff {suite : Suite Rule} {tree : Tree} (coherent : tree.Coherent)
    (session : Session) (clock : Nat → Duration)
    : let diagnostics := (suite.analyze tree session clock).1.diagnostics
      let tried := trials tree (attempts diagnostics)
      (applyAll diagnostics tree).1
        = { applied := tried.countP (·.applied), skipped := tried.countP (!·.applied) }
      ∧ (∀ earlier now later,
          tried = earlier ++ now :: later
          → (now.InPlace ↔ ∀ cause ∈ earlier, ¬cause.CutsOff now.diagnostic.anchor))
      ∧ ((∀ now ∈ tried, now.applied → now.InPlace)
          ↔ tried.Pairwise fun cause now =>
              now.applied → ¬cause.CutsOff now.diagnostic.anchor) := by
  intro diagnostics tried
  have offered : ∀ diagnostic ∈ attempts diagnostics, diagnostic.fix.isSome :=
    fun _ member => (List.mem_filter.mp (List.mem_reverse.mp member)).2
  have inPlace : ∀ earlier now later, tried = earlier ++ now :: later
      → (now.InPlace ↔ ∀ cause ∈ earlier, ¬cause.CutsOff now.diagnostic.anchor) := by
    intro earlier now later split
    have among : now.diagnostic ∈ attempts diagnostics := by
      rw [← trials_diagnostics tree (attempts diagnostics)]
      exact List.mem_map_of_mem (List.mem_iff_append.mpr ⟨earlier, later, split⟩)
    have attached := suite.attached_of_attempt coherent among
    have old := coherent.lt_size_of_mem_preorder (coherent.attached_iff.mp attached)
    rw [Trial.InPlace, attached_at_turn coherent split old, and_iff_right attached]
  refine ⟨?_, inPlace, fun honest => ?_, fun spared now member applied => ?_⟩
  · rw [applyAll_eq, foldl_step_counts offered, Nat.zero_add, Nat.zero_add]
  · refine List.pairwise_iff_getElem.mpr fun i j _ inside ordered applied => ?_
    have split : tried = tried.take j ++ tried[j] :: tried.drop (j + 1) := by simp
    exact (inPlace _ _ _ split).mp (honest _ (List.getElem_mem inside) applied) _
      (List.mem_take_iff_getElem.mpr ⟨i, by omega, rfl⟩)
  · obtain ⟨earlier, later, split⟩ := List.mem_iff_append.mp member
    rw [inPlace earlier now later split]
    intro cause before
    rw [split] at spared
    exact (List.pairwise_append.mp spared).2.2 cause before now List.mem_cons_self applied

end Suite

/-- A suite of the rules about final methods of final classes and about methods of anonymous classes,
with all fixes offered.
-/
def classSuite : Suite Rule where
  entries :=
    [{ timed := { inspection := .finalMethodInFinalClass }, enabled := true },
      { timed := { inspection := .anonymousClassMethodCount (.ofDefault 1) }, enabled := true }]
  interactive := true

/-- A file with a class whose method creates an object of an anonymous class with two methods. The
object gets another one of an anonymous class, with a final method in a final class.
-/
def argumentCreation : Document where
  root :=
    let finalMethod := (Outline.method "last").withModifier .final
    let inner := ((Outline.namedClass "Inner").withModifier .final).withChild finalMethod
    let argument := ((Outline.ofKind .newExpression).named "Part").withChild
      ((Outline.anonymousClass "Part").withChild inner)
    let creation := (((Outline.ofKind .newExpression).named "Base").withArgument argument).withChild
      ((Outline.anonymousClass "Base").append [Outline.method "first", Outline.method "second"])
    Outline.file.withChild <| (Outline.namedClass "Outer").withChild <|
      (Outline.method "run").withChild <| Outline.codeBlock.withChild <|
        Outline.expressionStatement creation

/-- The creation is replaced before the final method of the argument has its turn. -/
theorem argumentCreation_trials
    : let tree := Tree.ofDocument argumentCreation
      ∃ cause now,
        trials tree (attempts (classSuite.analyze tree { }).1.diagnostics) = [cause, now]
        ∧ now.applied
        ∧ ¬now.InPlace := by
  intro tree
  have seen : (trials tree (attempts (classSuite.analyze tree { }).1.diagnostics)).map
      (fun trial => (trial.applied, decide (trial.diagnostic.anchor ∈ trial.tree.preorder)))
        = [(true, true), (true, false)] := by decide +kernel
  obtain ⟨cause, rest, made, _, others⟩ := List.map_eq_cons_iff.mp seen
  obtain ⟨now, rfl, last⟩ := List.map_eq_singleton_iff.mp others
  obtain ⟨applied, apart⟩ := Prod.mk.inj last
  have among : now ∈ trials tree (attempts (classSuite.analyze tree { }).1.diagnostics) := by
    rw [made]
    exact List.mem_cons_of_mem cause List.mem_cons_self
  refine ⟨cause, now, made, applied, fun inPlace => ?_⟩
  have coherent := coherent_of_trial (Tree.ofDocument_coherent argumentCreation) among
  exact of_decide_eq_false apart (coherent.attached_iff.mp inPlace)

/-- Both fixes are counted as applied, and the node of the second is detached at its turn. -/
theorem argumentCreation_miscounted
    : let tree := Tree.ofDocument argumentCreation
      let diagnostics := (classSuite.analyze tree { }).1.diagnostics
      tree.writable
      ∧ (applyAll diagnostics tree).1 = { applied := 2, skipped := 0 }
      ∧ ¬∀ now ∈ trials tree (attempts diagnostics), now.applied → now.InPlace := by
  obtain ⟨cause, now, made, applied, apart⟩ := argumentCreation_trials
  refine ⟨rfl, by decide +kernel, fun honest => apart (honest now ?_ applied)⟩
  rw [made]
  exact List.mem_cons_of_mem cause List.mem_cons_self

/-- The first fix cuts off the node of the second one. -/
theorem argumentCreation_cutOff
    : let tree := Tree.ofDocument argumentCreation
      ∃ cause now,
        trials tree (attempts (classSuite.analyze tree { }).1.diagnostics) = [cause, now]
        ∧ cause.CutsOff now.diagnostic.anchor := by
  obtain ⟨cause, now, made, _, apart⟩ := argumentCreation_trials
  have coherent := Tree.ofDocument_coherent argumentCreation
  have turns := (Suite.applied_inPlace_iff coherent { } fun _ => .zero).2.1 [cause] now [] made
  refine ⟨cause, now, made, ?_⟩
  by_contra spared
  exact apart (turns.mpr (List.forall_mem_singleton.mpr spared))

end TreeLint
