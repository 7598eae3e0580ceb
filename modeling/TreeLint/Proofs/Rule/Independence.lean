import TreeLint.Proofs.Rule.Cancellation
import TreeLint.Proofs.Rule.ReportOrder
import TreeLint.Proofs.Tree.LookUps

/-! What a run of a rule depends on. A rule asks the tree about the node that it is called at, and
reports that node, a child of it or an import of its file. Main result: a run over a tree reports
the same about another one that gives the same answers for the nodes of its arena.
-/

namespace TreeLint

-----------------------------------------------------------------------------------------
-- Reactions
-----------------------------------------------------------------------------------------

/-- The node and everything below it are in the arena, just as it is here. -/
def Tree.Shows (tree : Tree) (node : Subtree) : Prop :=
  tree.subtree? node.id = some node

namespace Tree.Shows

variable {tree : Tree} {node : Subtree}

theorem lt_size (shows : tree.Shows node) : node.id < tree.size :=
  lt_size_of_content? (content?_of_shown shows)

theorem child (shows : tree.Shows node) {below : Subtree} (member : below ∈ node.children)
    : tree.Shows below :=
  (subtree?_of_mem_children shows member).1

theorem parent {id : NodeId} (up : tree.parentSubtree? id = some node) : tree.Shows node := by
  obtain ⟨parent, _, shown⟩ := Option.bind_eq_some_iff.mp up
  rwa [← subtree?_id shown] at shown

/-- The static imports of a file are in the arena. -/
theorem staticImport (shows : tree.Shows node) {anchor : Subtree}
    (member : anchor ∈ Checker.staticImports node)
    : tree.Shows anchor := by
  obtain ⟨imports, isList, static, isStatic, isName⟩ := Checker.children_of_mem_staticImports member
  exact ((shows.child isList).child isStatic).child isName

end Tree.Shows

/-- At nodes of the arena the same is done, and what is reported there is in the arena. -/
structure Reaction.Alike (tree : Tree) (here there : Reaction) : Prop where
  same : ∀ around node, tree.Shows node → there around node = here around node
  shows
    : ∀ around node, tree.Shows node → ∀ anchor ∈ (here around node).reports, tree.Shows anchor

namespace Reaction.Alike

variable {tree : Tree} {goesOn : Surroundings → Subtree → Option Surroundings}

theorem reporting {here there : Surroundings → Subtree → List Subtree}
    (same : ∀ around node, tree.Shows node → there around node = here around node)
    (shows
      : ∀ around node, tree.Shows node → ∀ anchor ∈ here around node, tree.Shows anchor)
    : Alike tree (fun around node => { below := goesOn around node, reports := here around node })
        (fun around node => { below := goesOn around node, reports := there around node }) where
  same around node shown := by rw [same around node shown]
  shows := shows

/-- The node itself is reported, under the same condition. -/
theorem self {here there : Surroundings → Subtree → Bool}
    (tests : ∀ around node, tree.Shows node → there around node = here around node)
    : Alike tree
        (fun around node => { below := goesOn around node, reports := node.selfIf (here around) })
        (fun around node =>
          { below := goesOn around node, reports := node.selfIf (there around) }) := by
  refine .reporting (fun around node shown => ?_) fun around node shown anchor member => ?_
  · rw [Subtree.selfIf, Subtree.selfIf, tests around node shown]
  · obtain ⟨rfl, _⟩ := Subtree.mem_selfIf_iff.mp member
    exact shown

/-- Nothing is reported. -/
theorem silent {reaction : Reaction} (silent : ∀ around node, (reaction around node).reports = [])
    : Alike tree reaction reaction where
  same _ _ _ := rfl
  shows around node _ anchor member := by
    rw [silent around node] at member
    cases member

theorem skip : Alike tree .skip .skip :=
  .silent fun _ _ => rfl

theorem walkRoot (scope : Scope) : Alike tree (.walkRoot scope) (.walkRoot scope) := by
  refine .silent fun around node => ?_
  rw [Reaction.walkRoot]
  split <;> rfl

end Reaction.Alike

-----------------------------------------------------------------------------------------
-- The reactions of the rules
-----------------------------------------------------------------------------------------

namespace Rule

section Rules

variable {tree other : Tree}

/-- What the rule does at nodes of a kind is the same in both trees. -/
def AlikeAt (rule : Rule) (tree other : Tree) (scope : Scope) (kind : NodeKind) : Prop :=
  Option.Rel (Reaction.Alike tree) (rule.checker.reaction? tree scope (.ofKind kind))
    (rule.checker.reaction? other scope (.ofKind kind))

theorem alikeAt_methodCount (limit : Threshold) (scope : Scope) (kind : NodeKind)
    : (Rule.anonymousClassMethodCount limit).AlikeAt tree other scope kind := by
  cases kind with
  | namedClass => exact .some .skip
  | anonymousClass =>
      refine .some (.reporting (fun _ _ _ => rfl) fun _ node shown anchor member => ?_)
      split at member
      · exact shown.child (List.mem_of_find?_eq_some (Option.mem_toList.mp member))
      · cases member
  | _ => exact .none

theorem alikeAt_multipleDeclaration (same : tree.SameAnswers other) (scope : Scope)
    (kind : NodeKind)
    : Rule.multipleDeclaration.AlikeAt tree other scope kind := by
  cases kind with
  | namedClass => exact .some .skip
  | field => exact .some (.self fun _ _ _ => rfl)
  | declarationStatement =>
      refine .some
        (.reporting (fun _ node shown => ?_) fun _ node shown anchor member => ?_)
      · simp only [same.parentContent node.id shown.lt_size]
      · dsimp only at member
        split at member
        · cases member
        · exact shown.child (List.mem_of_mem_filter (List.mem_of_mem_drop member))
  | _ => exact .none

theorem alikeAt_staticImport (same : tree.SameAnswers other) (scope : Scope) (kind : NodeKind)
    : Rule.staticImport.AlikeAt tree other scope kind := by
  cases kind with
  | namedClass =>
      refine .some
        (.reporting (fun _ node shown => ?_) fun _ node shown anchor member => ?_)
      · simp only [same.parentSubtree node.id shown.lt_size]
      · split at member
        · next file beside =>
            have ofFile := Tree.Shows.parent (Option.filter_eq_some_iff.mp beside).1
            split at member
            · exact ofFile.staticImport member
            · cases member
        · cases member
  | _ => exact .none

theorem alikeAt_extendsAnnotation (same : tree.SameAnswers other) (scope : Scope)
    (kind : NodeKind)
    : Rule.extendsAnnotationType.AlikeAt tree other scope kind := by
  cases kind with
  | namedClass =>
      refine .some
        (.reporting (fun _ node shown => ?_) fun _ node shown anchor member => ?_)
      · simp only [same.level, same.resolve]
      · split at member
        · exact shown.child (List.mem_of_mem_filter member)
        · cases member
  | _ => exact .none

theorem alikeAt_serializable (scope : Scope) (kind : NodeKind)
    : Rule.serializableClassInSecureContext.AlikeAt tree other scope kind := by
  cases kind with
  | namedClass =>
      refine .some (.reporting (fun _ _ _ => rfl) fun _ node shown anchor member => ?_)
      split at member
      · split at member
        · rw [List.mem_singleton.mp member]
          cases base : node.childWithRole? .baseClass with
          | none => exact shown
          | some child => exact shown.child (List.mem_of_find?_eq_some base)
        · rwa [List.mem_singleton.mp member]
      · cases member
  | _ => exact .none

theorem alikeAt_threads (same : tree.SameAnswers other) (scope : Scope) (kind : NodeKind)
    : Rule.threadStopSuspendResume.AlikeAt tree other scope kind := by
  cases kind with
  | namedClass => exact .some .skip
  | methodCall =>
      refine .some (.self fun _ call _ => congrArg _ ?_)
      rw [same.resolve]
      cases leads : tree.resolve? call.content with
      | none => rfl
      | some declaration =>
          rw [Option.any_some, Option.any_some, same.owner call.content declaration leads]
  | _ => exact .none

theorem alikeAt_locks (same : tree.SameAnswers other) (scope : Scope) (kind : NodeKind)
    : Rule.publicFieldAccessedInSynchronizedContext.AlikeAt tree other scope kind := by
  cases kind with
  | namedClass => exact .some .skip
  | method | synchronizedStatement => exact .some (.silent fun _ _ => rfl)
  | referenceExpression =>
      refine .some (.self fun _ reference _ => ?_)
      rw [same.resolve]
  | _ => exact .none

/-- By cases on the rule and on the kind. -/
theorem alikeAt (same : tree.SameAnswers other) (rule : Rule) (scope : Scope) (kind : NodeKind)
    : rule.AlikeAt tree other scope kind := by
  cases rule with
  | anonymousClassMethodCount limit => exact alikeAt_methodCount limit scope kind
  | staticImport => exact alikeAt_staticImport same scope kind
  | multipleDeclaration => exact alikeAt_multipleDeclaration same scope kind
  | extendsAnnotationType => exact alikeAt_extendsAnnotation same scope kind
  | serializableClassInSecureContext => exact alikeAt_serializable scope kind
  | threadStopSuspendResume => exact alikeAt_threads same scope kind
  | publicFieldAccessedInSynchronizedContext => exact alikeAt_locks same scope kind
  | infiniteLoopStatement =>
      cases kind with
      | namedClass => exact .some .skip
      | forStatement | whileStatement | doWhileStatement => exact .some (.self fun _ _ _ => rfl)
      | _ => exact .none
  | finalMethodInFinalClass =>
      cases kind with
      | method =>
          refine .some (.self fun _ method shown => ?_)
          rw [same.parentContent method.id shown.lt_size]
      | _ => exact .none
  | multipleReturnPointsPerMethod limit =>
      cases kind with
      | method => exact .some (.self fun _ _ _ => rfl)
      | _ => exact .none
  | pointlessBitwiseExpression =>
      cases kind with
      | namedClass => exact .some .skip
      | binaryExpression => exact .some (.self fun _ _ _ => rfl)
      | _ => exact .none
  | typeParameterExtendsObject =>
      cases kind with
      | namedClass => exact .some (.walkRoot scope)
      | typeParameter => exact .some (.self fun _ _ _ => rfl)
      | _ => exact .none
  | chainedMethodCall ignoreFields =>
      cases kind with
      | namedClass => exact .some .skip
      | methodCall =>
          refine .some (.self fun _ call shown => ?_)
          rw [same.above call.id shown.lt_size]
      | _ => exact .none
  | todoComment pattern =>
      cases kind with
      | namedClass => exact .some (.walkRoot scope)
      | comment => exact .some (.self fun _ _ _ => rfl)
      | _ => exact .none
  | literalAsArgToStringEquals =>
      cases kind with
      | namedClass => exact .some .skip
      | methodCall => exact .some (.self fun _ _ _ => rfl)
      | _ => exact .none
  | cloneCallsSuperClone =>
      cases kind with
      | method =>
          refine .some (.self fun _ method shown => ?_)
          rw [same.parentContent method.id shown.lt_size]
      | _ => exact .none

/-- A rule does the same wherever it is called at a node: it speaks of kinds alone. -/
theorem reactionFor?_alike {context : PassContext} (same : context.tree.SameAnswers other)
    (rule : Rule) (kind : NodeKind)
    : Option.Rel (Reaction.Alike context.tree) (rule.checker.reactionFor? context kind)
        (rule.checker.reactionFor? { context with tree := other } kind) := by
  refine Checker.reactionFor?_rel (fun callback => ?_) kind
  cases callback with
  | ofKind kind => exact alikeAt same rule context.scope kind
  | _ => cases rule <;> exact .none

-----------------------------------------------------------------------------------------
-- Diagnostics
-----------------------------------------------------------------------------------------

/-- What a rule says about a node of the arena is the same. -/
theorem message_same (same : tree.SameAnswers other) (rule : Rule) {anchor : Subtree}
    (old : anchor.id < tree.size)
    : rule.checker.message other anchor = rule.checker.message tree anchor := by
  cases rule with
  | anonymousClassMethodCount limit =>
      simp only [checker, Checker.anonymousClassMethodCount, same.parentSubtree anchor.id old]
  | extendsAnnotationType =>
      simp only [checker, Checker.extendsAnnotationType, same.parentContent anchor.id old]
  | _ => rfl

theorem diagnose_same {context : PassContext} (same : context.tree.SameAnswers other) (rule : Rule)
    {anchor : Subtree} (old : anchor.id < context.tree.size)
    : rule.diagnose { context with tree := other } anchor = rule.diagnose context anchor := by
  simp only [diagnose, Profile.diagnose, message_same same rule old, same.location anchor.id old]

/-- The diagnostics that are added are the same. -/
theorem report_same {context : PassContext} (same : context.tree.SameAnswers other) (rule : Rule)
    {anchors : List Subtree} (shows : ∀ anchor ∈ anchors, context.tree.Shows anchor)
    (state : PassState)
    : rule.checker.report { context with tree := other } anchors state
      = rule.checker.report context anchors state := by
  rw [Checker.report_eq, Checker.report_eq]
  have each : anchors.map (rule.diagnose { context with tree := other })
      = anchors.map (rule.diagnose context) :=
    List.map_congr_left fun anchor member => diagnose_same same rule (shows anchor member).lt_size
  exact congrArg (fun added => { state with reported := state.reported ++ added }) each

-----------------------------------------------------------------------------------------
-- Runs
-----------------------------------------------------------------------------------------

/-- What a pass reports is a node of the arena, whoever stops it. -/
theorem anchor_lt_size {rule : Rule} {context : PassContext} {flag : Option CancelFlag}
    {diagnostic : Diagnostic}
    (member : diagnostic ∈ (Inspection.inspectScope rule context flag).reported)
    : diagnostic.anchor < context.tree.size := by
  obtain ⟨node, shown, reaction, around, anchor, reacts, reported, rfl⟩ :=
    rule.inspectScope_provenance member
  have alike := reactionFor?_alike (.refl context.tree) rule node.kind
  rw [reacts] at alike
  rcases alike with both | _
  exact (both.shows around node shown anchor reported).lt_size

/-- Walking some nodes is the same if visiting each of them is, by induction on the nodes. -/
private theorem walk_same {checker : Checker} {first second : PassContext} {nodes : List Subtree}
    (each
      : ∀ node ∈ nodes, ∀ progress,
          (checker.visitor second).visit node progress
          = (checker.visitor first).visit node progress)
    (progress : Checker.Progress)
    : (checker.visitor second).walk nodes progress = (checker.visitor first).walk nodes progress := by
  induction nodes generalizing progress with
  | nil => rfl
  | cons node rest ih =>
      have later := ih fun other member => each other (List.mem_cons_of_mem node member)
      rw [Checker.walk_cons, Checker.walk_cons, each node List.mem_cons_self, later]

/-- A visit of a node of the arena does the same, by induction on the subtree. -/
theorem visit_same {context : PassContext} (same : context.tree.SameAnswers other) (rule : Rule)
    {node : Subtree} (shows : context.tree.Shows node) (progress : Checker.Progress)
    : (rule.checker.visitor { context with tree := other }).visit node progress
      = (rule.checker.visitor context).visit node progress := by
  induction node using Subtree.induction generalizing progress with
  | step node ih =>
      have walked : (rule.checker.visitor { context with tree := other }).walk node.children
          = (rule.checker.visitor context).walk node.children :=
        funext fun progress =>
          walk_same (fun child member => ih child member (shows.child member)) progress
      have reacts := reactionFor?_alike same rule node.kind
      rw [Visitor.visit_eq, Visitor.visit_eq, Checker.actionFor_visitor, Checker.actionFor_visitor,
        walked]
      revert reacts
      generalize rule.checker.reactionFor? context node.kind = here
      generalize rule.checker.reactionFor? { context with tree := other } node.kind = there
      rintro (alike | _)
      · simp only [Option.map_some, Option.getD_some, Checker.act,
          alike.same progress.around node shows,
          report_same same rule (alike.shows progress.around node shows)]
      · rfl

/-- A pass over a scope in the arena does the same, whoever stops it. -/
theorem inspectScope_same {context : PassContext} (coherent : context.tree.Coherent)
    (same : context.tree.SameAnswers other) (rule : Rule)
    (inside : context.scope.root < context.tree.size) (flag : Option CancelFlag)
    : Inspection.inspectScope rule { context with tree := other } flag
      = Inspection.inspectScope rule context flag := by
  obtain ⟨root, shown⟩ := coherent.subtree?_exists inside
  have shows : context.tree.Shows root := by
    rwa [← Tree.subtree?_id shown] at shown
  rw [Inspection.inspectScope, Inspection.inspectScope, if_pos (same.contains _ inside),
    if_pos (Tree.contains_iff.mpr inside), same.subtree _ inside, shown]
  exact congrArg Checker.Progress.pass (visit_same same rule shows { pass := { flag } })

end Rules

end Rule

end TreeLint
