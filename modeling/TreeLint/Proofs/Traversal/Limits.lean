import TreeLint.Proofs.Traversal.Preorder

/-! Traversals that stop after a number of entries. Whatever callbacks a visitor overrides to write
nodes down, and wherever it walks on from there, a limit ends the traversal on every open level at
once. Main result: what is written down under a limit is the beginning of what is written down
without one.
-/

namespace TreeLint

/-- A visitor that writes nodes down. For each callback that it overrides it says whether it walks on
below a node, which may depend on what it has written down by then.
-/
structure Scribe where
  descends? : Callback → Option (Subtree → List Visit → Bool)

namespace Scribe

variable {scribe : Scribe} {limit : Nat}

/-- What happens at an overridden callback: the node is written down, and then its children are
walked or left out.
-/
def note (callback : Callback) (descends : Subtree → List Visit → Bool) : Action (List Visit) :=
  fun node walk entries =>
    let entries := entries ++ [{ callback, node := node.id }]
    if descends node entries then walk entries else entries

/-- The visitor goes on as long as fewer nodes are written down than the limit says, if there is
one.
-/
def visitor (scribe : Scribe) (limit : Option Nat) : Visitor (List Visit) where
  goesOn entries := (limit.all (entries.length < ·), entries)
  action? callback := (scribe.descends? callback).map (note callback)

/-- The entries of a traversal that starts at a node. -/
def record (scribe : Scribe) (limit : Option Nat) (node : Subtree) : List Visit :=
  (scribe.visitor limit).visit node []

/-- What is written down from a node of a tree on, if nothing is broken there. -/
def record? (scribe : Scribe) (limit : Option Nat) (tree : Tree) (start : NodeId)
    : Option (List Visit) :=
  (tree.subtree? start).map (scribe.record limit)

/-- The first overridden callback of a kind, with what it says about walking on. -/
def noteFor? (scribe : Scribe) (kind : NodeKind) : Option (Action (List Visit)) :=
  (Callback.chain kind).findSome? fun callback =>
    (scribe.descends? callback).map (note callback)

/-- What happens at a node does not depend on the limit. -/
theorem actionFor_eq (scribe : Scribe) (limit : Option Nat) (kind : NodeKind)
    : (scribe.visitor limit).actionFor kind
      = (scribe.noteFor? kind).getD fun _ walk => walk :=
  rfl

theorem noteFor?_eq_some {kind : NodeKind} {action : Action (List Visit)}
    (noted : scribe.noteFor? kind = some action)
    : ∃ callback descends, action = note callback descends := by
  obtain ⟨callback, _, told⟩ := List.exists_of_findSome?_eq_some noted
  obtain ⟨descends, _, rfl⟩ := Option.map_eq_some_iff.mp told
  exact ⟨callback, descends, rfl⟩

/-- Walking further children visits the first of them, unless the limit is reached. -/
theorem walk_cons (scribe : Scribe) (limit : Option Nat) (node : Subtree) (rest : List Subtree)
    (entries : List Visit)
    : (scribe.visitor limit).walk (node :: rest) entries
      = if limit.all (entries.length < ·) then
          (scribe.visitor limit).walk rest ((scribe.visitor limit).visit node entries)
        else
          entries := by
  have asked : (scribe.visitor limit).goesOn entries
      = (limit.all (entries.length < ·), entries) := rfl
  rw [Visitor.walk, asked]
  cases limit.all (entries.length < ·) <;> rfl

-----------------------------------------------------------------------------------------
-- Without a limit
-----------------------------------------------------------------------------------------

/-- Walking nodes adds entries behind those there are if visiting each of them does, by induction on
the nodes.
-/
theorem walk_extends {nodes : List Subtree}
    (each : ∀ node ∈ nodes, ∀ entries, entries <+: (scribe.visitor none).visit node entries)
    (entries : List Visit)
    : entries <+: (scribe.visitor none).walk nodes entries := by
  induction nodes generalizing entries with
  | nil => exact List.prefix_refl entries
  | cons node rest ih =>
      rw [walk_cons, Option.all_none, if_pos rfl]
      exact (each node List.mem_cons_self entries).trans
        (ih (fun other later => each other (List.mem_cons_of_mem node later)) _)

/-- A visit adds entries behind those there are, by induction on the subtree. -/
theorem visit_extends (scribe : Scribe) (node : Subtree) (entries : List Visit)
    : entries <+: (scribe.visitor none).visit node entries := by
  induction node using Subtree.induction generalizing entries with
  | step node ih =>
      have walked := walk_extends ih
      rw [Visitor.visit_eq, actionFor_eq]
      cases noted : scribe.noteFor? node.kind with
      | none => exact walked entries
      | some action =>
          obtain ⟨callback, descends, rfl⟩ := noteFor?_eq_some noted
          refine (List.prefix_append entries [{ callback, node := node.id }]).trans ?_
          simp only [Option.getD_some, note]
          split
          · exact walked _
          · exact List.prefix_refl _

-----------------------------------------------------------------------------------------
-- Under a limit
-----------------------------------------------------------------------------------------

/-- Entries that reach the limit hide all that comes behind them. -/
theorem take_of_starts {entries more : List Visit} (longer : entries <+: more)
    (full : limit ≤ entries.length)
    : more.take limit = entries.take limit := by
  obtain ⟨rest, rfl⟩ := longer
  exact List.take_append_of_le_length full

/-- A walk under a limit that is not passed yet cuts off what a walk without one adds beyond the
limit, if the visits do, by induction on the nodes.
-/
theorem walk_limited {nodes : List Subtree}
    (each
      : ∀ node ∈ nodes, ∀ entries,
          entries.length < limit
          → (scribe.visitor (some limit)).visit node entries
            = ((scribe.visitor none).visit node entries).take limit)
    {entries : List Visit} (within : entries.length ≤ limit)
    : (scribe.visitor (some limit)).walk nodes entries
      = ((scribe.visitor none).walk nodes entries).take limit := by
  have extended (nodes : List Subtree) (entries : List Visit)
      : entries <+: (scribe.visitor none).walk nodes entries :=
    walk_extends (fun node _ => scribe.visit_extends node) entries
  induction nodes generalizing entries with
  | nil => exact (List.take_of_length_le within).symm
  | cons node rest ih =>
      rw [walk_cons scribe (some limit), Option.all_some]
      by_cases more : entries.length < limit
      · have visited := each node List.mem_cons_self entries more
        have walked := ih (fun other later => each other (List.mem_cons_of_mem node later))
          (List.length_take_le limit ((scribe.visitor none).visit node entries))
        rw [if_pos (decide_eq_true more), visited, walked, walk_cons scribe none,
          Option.all_none, if_pos rfl]
        -- If the visit passes the limit, the rest adds nothing on either side.
        by_cases short : ((scribe.visitor none).visit node entries).length ≤ limit
        · rw [List.take_of_length_le short]
        · have long := Nat.le_of_not_le short
          have reached : limit
              ≤ (((scribe.visitor none).visit node entries).take limit).length := by
            rw [List.length_take_of_le long]
          rw [take_of_starts (extended rest _) reached, take_of_starts (extended rest _) long,
            List.take_take, Nat.min_self]
      · rw [if_neg (by simpa using more), take_of_starts (extended _ entries) (Nat.le_of_not_lt more),
          List.take_of_length_le within]

/-- A visit that starts below the limit cuts off what a visit without one adds beyond the limit, by
induction on the subtree.
-/
theorem visit_limited (scribe : Scribe) (node : Subtree) {entries : List Visit}
    (below : entries.length < limit)
    : (scribe.visitor (some limit)).visit node entries
      = ((scribe.visitor none).visit node entries).take limit := by
  induction node using Subtree.induction generalizing entries with
  | step node ih =>
      have walked {entries : List Visit} (within : entries.length ≤ limit) :=
        walk_limited (fun child member _ => ih child member) within
      rw [Visitor.visit_eq, Visitor.visit_eq, actionFor_eq, actionFor_eq]
      cases noted : scribe.noteFor? node.kind with
      | none => exact walked (Nat.le_of_lt below)
      | some action =>
          obtain ⟨callback, descends, rfl⟩ := noteFor?_eq_some noted
          have within : (entries ++ [(⟨callback, node.id⟩ : Visit)]).length ≤ limit := by
            rw [List.length_append]
            exact below
          simp only [Option.getD_some, note]
          split
          · exact walked within
          · exact (List.take_of_length_le within).symm

/-- Under a limit that leaves room for an entry, the first entries are written down. -/
theorem record_limited (scribe : Scribe) (node : Subtree) (positive : 0 < limit)
    : scribe.record (some limit) node = (scribe.record none node).take limit :=
  scribe.visit_limited node positive

-----------------------------------------------------------------------------------------
-- Recorders
-----------------------------------------------------------------------------------------

/-- A recorder decides by the kind of a node whether it walks on. -/
def ofRecorder (recorder : Recorder) : Scribe where
  descends? callback :=
    if recorder.callbacks.contains callback then
      some fun node _ => !recorder.pruned.contains node.kind
    else
      none

/-- The state of a recorder with some entries: its budget is what they leave of the limit. -/
def progress (limit : Option Nat) (entries : List Visit) : Recorder.Progress :=
  { entries, budget := limit.map (· - entries.length) }

theorem noteFor?_ofRecorder (recorder : Recorder) (kind : NodeKind)
    : (ofRecorder recorder).noteFor? kind
      = (recorder.heardAt? kind).map fun callback =>
          note callback fun node _ => !recorder.pruned.contains node.kind := by
  rw [noteFor?, Recorder.heardAt?]
  induction Callback.chain kind with
  | nil => rfl
  | cons callback rest ih =>
      have told : ((ofRecorder recorder).descends? callback).map (note callback)
          = if recorder.callbacks.contains callback then
              some (note callback fun node _ => !recorder.pruned.contains node.kind)
            else
              none := by
        simp only [ofRecorder]
        split <;> rfl
      rw [List.findSome?_cons, List.find?_cons, told]
      cases recorder.callbacks.contains callback with
      | false => exact ih
      | true => rfl

/-- A recorder is asked whether to go on with the same answer as its scribe. -/
theorem goesOn_progress (recorder : Recorder) (limit : Option Nat) (entries : List Visit)
    : recorder.visitor.goesOn (progress limit entries)
      = (limit.all (entries.length < ·), progress limit entries) := by
  cases limit with
  | none => rfl
  | some limit =>
      have left : (some (limit - entries.length) != some 0) = decide (entries.length < limit) := by
        rw [Bool.eq_iff_iff, bne_iff_ne, decide_eq_true_iff, ne_eq, Option.some.injEq]
        omega
      exact Prod.ext left rfl

/-- A recorder walks nodes as its scribe does if it visits them so, by induction on the nodes. -/
theorem walk_ofRecorder {recorder : Recorder} {limit : Option Nat} {nodes : List Subtree}
    (each
      : ∀ node ∈ nodes, ∀ entries,
          recorder.visitor.visit node (progress limit entries)
          = progress limit (((ofRecorder recorder).visitor limit).visit node entries))
    (entries : List Visit)
    : recorder.visitor.walk nodes (progress limit entries)
      = progress limit (((ofRecorder recorder).visitor limit).walk nodes entries) := by
  induction nodes generalizing entries with
  | nil => simp [Visitor.walk]
  | cons node rest ih =>
      rw [walk_cons, Visitor.walk, goesOn_progress]
      cases limit.all (entries.length < ·) with
      | false => rfl
      | true =>
          dsimp only
          rw [each node List.mem_cons_self, if_pos rfl]
          exact ih (fun other later => each other (List.mem_cons_of_mem node later)) _

/-- A recorder visits a node as its scribe does, by induction on the subtree. -/
theorem visit_ofRecorder (recorder : Recorder) (limit : Option Nat) (node : Subtree)
    (entries : List Visit)
    : recorder.visitor.visit node (progress limit entries)
      = progress limit (((ofRecorder recorder).visitor limit).visit node entries) := by
  induction node using Subtree.induction generalizing entries with
  | step node ih =>
      have walked := walk_ofRecorder ih
      rw [Visitor.visit_eq, Visitor.visit_eq, actionFor_eq, noteFor?_ofRecorder,
        Visitor.actionFor, Recorder.findSome?_action?, ← Recorder.heardAt?]
      cases recorder.heardAt? node.kind with
      | none => exact walked entries
      | some callback =>
          have added : (progress limit entries).add { callback, node := node.id }
              = progress limit (entries ++ [{ callback, node := node.id }]) := by
            rw [progress, progress, Recorder.Progress.add, Option.map_map, List.length_append]
            cases limit <;> rfl
          simp only [Option.map_some, Option.getD_some, Recorder.note, note, added]
          split
          · next pruned => rw [if_neg (by simpa using pruned)]
          · next walks => rw [if_pos (by simpa using walks), walked]

/-- A recorder writes down what its scribe does. -/
theorem record_ofRecorder (recorder : Recorder) (limit : Option Nat) (node : Subtree)
    : recorder.record limit node = (ofRecorder recorder).record limit node := by
  have start : ({ budget := limit } : Recorder.Progress) = progress limit [] := by
    rw [progress]
    cases limit <;> rfl
  rw [Recorder.record, start, visit_ofRecorder]
  rfl

/-- Whatever callbacks are overridden to write nodes down and then to walk on or not, a traversal of
a tree from any node of it ends with some entries if nothing stops it. Told to stop once a number of
entries is written down, it ends with the first of these, as many as the number says or else all.
-/
theorem traversal_limited {tree : Tree} (reachable : tree.Reachable) {start : NodeId}
    (present : tree.contains start) (scribe : Scribe)
    : ∃ entries,
        scribe.record? none tree start = some entries
        ∧ ∀ limit,
            0 < limit → scribe.record? (some limit) tree start = some (entries.take limit) := by
  obtain ⟨node, shown⟩ := reachable.coherent.subtree?_exists (Tree.contains_iff.mp present)
  refine ⟨scribe.record none node, ?_, fun limit positive => ?_⟩
  · rw [record?, shown, Option.map_some]
  · rw [record?, shown, Option.map_some, scribe.record_limited node positive]

end Scribe

/-- A recorder with a budget writes down the first entries of one without. -/
theorem Recorder.record_limited (recorder : Recorder) (node : Subtree) {budget : Nat}
    (positive : 0 < budget)
    : recorder.record (some budget) node = (recorder.record none node).take budget := by
  rw [Scribe.record_ofRecorder, Scribe.record_ofRecorder, Scribe.record_limited _ node positive]

/-- A scribe that writes down statements and calls, and leaves out what is below a call as soon as
it has written down more than four nodes.
-/
def tiringScribe : Scribe where
  descends?
    | .statement => some fun _ _ => true
    | .ofKind .methodCall => some fun _ entries => entries.length ≤ 4
    | _ => none

/-- A file with two statements, each a call with calls for arguments. -/
def nestedCalls : Document where
  root :=
    let nested (inner : String) : Outline :=
      Outline.expressionStatement
        ((Outline.call "f" (some (Outline.referenceExpression "a"))).withArgument
          ((Outline.call "g" none).withArgument (Outline.call inner none)))
    Outline.file.withChild <| (Outline.namedClass "A").withChild <|
      (Outline.method "m").withChild <|
        (Outline.codeBlock.withChild (nested "h")).withChild (nested "k")

/-- Told to stop after three of six entries, the scribe stops inside the first statement. -/
theorem nestedCalls_limited
    : ∃ entries,
        tiringScribe.record? none (.ofDocument nestedCalls) 0 = some entries
        ∧ entries.map (·.node) = [4, 5, 7, 8, 9, 10]
        ∧ tiringScribe.record? (some 3) (.ofDocument nestedCalls) 0 = some (entries.take 3) := by
  obtain ⟨entries, recorded, limited⟩ :=
    Scribe.traversal_limited (.loaded nestedCalls)
      (show (Tree.ofDocument nestedCalls).contains 0 by decide +kernel) tiringScribe
  refine ⟨entries, recorded, ?_, limited 3 (by decide)⟩
  have told : (tiringScribe.record? none (.ofDocument nestedCalls) 0).map (·.map (·.node))
      = some [4, 5, 7, 8, 9, 10] := by
    decide +kernel
  rw [recorded] at told
  exact Option.some.inj told

end TreeLint
