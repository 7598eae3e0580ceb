import TreeLint.Proofs.Rule.ClassProblems
import TreeLint.Proofs.Tree.Reloading

/-! Rules on the attached part of a tree under other numbers. A rule goes the same way in both trees
and reports the same nodes, but for three rules that ask what a node refers to: these do not report
a node that refers to a declaration that is left over.

Main result: a run of a rule reports of the attached part what it reports of the tree, under the
other numbers, without the reports that rest on a declaration that is left over.
-/

namespace TreeLint

-----------------------------------------------------------------------------------------
-- Reports that rest on what is left over
-----------------------------------------------------------------------------------------

/-- The node refers, by a label, to a node that is left over. -/
def Tree.leadsToLeftOver (tree : Tree) (id : NodeId) : Bool :=
  (tree.content? id).any tree.refersToLeftOver

theorem Tree.Displays.leadsToLeftOver {tree : Tree} {node : Subtree}
    (displays : tree.Displays node)
    : tree.leadsToLeftOver node.id = tree.refersToLeftOver node.content := by
  rw [Tree.leadsToLeftOver, displays.content?, Option.any_some]

namespace Rule

/-- The rule asks of the nodes that it reports what they refer to. -/
def asksReference : Rule → Bool
  | .extendsAnnotationType => true
  | .threadStopSuspendResume => true
  | .publicFieldAccessedInSynchronizedContext => true
  | _ => false

/-- A report of the rule about the node would rest on a declaration that is left over. -/
def restsOnLeftOver (rule : Rule) (tree : Tree) (id : NodeId) : Bool :=
  rule.asksReference && tree.leadsToLeftOver id

/-- The reports of the rule that do not rest on a declaration that is left over. -/
def keeps (rule : Rule) (tree : Tree) (node : Subtree) : Bool :=
  !rule.restsOnLeftOver tree node.id

end Rule

-----------------------------------------------------------------------------------------
-- Reactions under other numbers
-----------------------------------------------------------------------------------------

/-- The step at the same node under other numbers, with the reports that are kept. -/
def Step.retold (number : NodeId → NodeId) (keep : Subtree → Bool) (step : Step) : Step :=
  { step with reports := (step.reports.filter keep).map (Subtree.renumber number) }

/-- What is reported at an attached node under its other number is what is kept of the reports, and
all of these are attached.
-/
structure ReportedAs (tree : Tree) (number : NodeId → NodeId) (keep : Subtree → Bool)
    (here there : Subtree → List Subtree)
    : Prop where
  retold
    : ∀ node,
        tree.Displays node
        → there (node.renumber number) = ((here node).filter keep).map (Subtree.renumber number)
  displays : ∀ node, tree.Displays node → ∀ anchor ∈ here node, tree.Displays anchor

/-- What is done at an attached node under its other number is what is done here, with the reports
that are kept, and all reports are about attached nodes.
-/
structure Reaction.RetoldAs (tree : Tree) (number : NodeId → NodeId) (keep : Subtree → Bool)
    (here there : Reaction)
    : Prop where
  retold
    : ∀ around node,
        tree.Displays node
        → there around (node.renumber number) = (here around node).retold number keep
  displays
    : ∀ around node,
        tree.Displays node → ∀ anchor ∈ (here around node).reports, tree.Displays anchor

section Reactions

variable {tree other : Tree} {number : NodeId → NodeId} {keep : Subtree → Bool}

theorem ReportedAs.selfIf {here there : Subtree → Bool}
    (tests
      : ∀ node, tree.Displays node → there (node.renumber number) = (here node && keep node))
    : ReportedAs tree number keep (Subtree.selfIf here) (Subtree.selfIf there) where
  retold := by
    intro node displays
    rw [Subtree.selfIf, Subtree.selfIf, tests node displays]
    cases here node <;> cases kept : keep node <;> simp [kept]
  displays := by
    intro node displays anchor member
    rw [Subtree.selfIf] at member
    split at member
    · rwa [List.mem_singleton.mp member]
    · cases member

/-- A test that does not ask what is kept reports the same, if everything is kept. -/
theorem ReportedAs.selfAlike {here there : Subtree → Bool} (all : ∀ node, keep node = true)
    (tests : ∀ node, tree.Displays node → there (node.renumber number) = here node)
    : ReportedAs tree number keep (Subtree.selfIf here) (Subtree.selfIf there) :=
  .selfIf fun node displays => by rw [tests node displays, all, Bool.and_true]

theorem ReportedAs.nothing : ReportedAs tree number keep (fun _ => []) (fun _ => []) where
  retold := fun _ _ => rfl
  displays := fun _ _ _ member => absurd member List.not_mem_nil

/-- Everything is kept. -/
theorem ReportedAs.whole {here there : Subtree → List Subtree} (all : ∀ node, keep node = true)
    (same : ∀ node, tree.Displays node
      → there (node.renumber number) = (here node).map (Subtree.renumber number))
    (displays : ∀ node, tree.Displays node → ∀ anchor ∈ here node, tree.Displays anchor)
    : ReportedAs tree number keep here there where
  retold := by
    intro node there
    rw [same node there, List.filter_eq_self.mpr fun anchor _ => all anchor]
  displays := displays

namespace Reaction.RetoldAs

theorem skip : RetoldAs tree number keep .skip .skip where
  retold := fun _ _ _ => rfl
  displays := fun _ _ _ _ member => absurd member List.not_mem_nil

theorem stop {here there : Subtree → List Subtree}
    (reported : ReportedAs tree number keep here there)
    : RetoldAs tree number keep (.stop here) (.stop there) where
  retold := fun _ node displays => congrArg Step.stop (reported.retold node displays)
  displays := fun _ => reported.displays

/-- Walking on in surroundings that do not depend on numbers. -/
theorem walkIn {below belowThere : Surroundings → Subtree → Surroundings}
    {here there : Surroundings → Subtree → List Subtree}
    (goes : ∀ around node, belowThere around (node.renumber number) = below around node)
    (reported : ∀ around, ReportedAs tree number keep (here around) (there around))
    : RetoldAs tree number keep (fun around node => .walk (below around node) (here around node))
        (fun around node => .walk (belowThere around node) (there around node)) where
  retold := by
    intro around node displays
    rw [goes, (reported around).retold node displays]
    rfl
  displays := fun around => (reported around).displays

theorem walk {here there : Subtree → List Subtree}
    (reported : ReportedAs tree number keep here there)
    : RetoldAs tree number keep (.walk here) (.walk there) :=
  walkIn (fun _ _ => rfl) fun _ => reported

/-- The root of the scope is the only node with its other number. -/
theorem walkRoot (same : tree.RenumberedAs other number) {scope : Scope}
    (attached : scope.root ∈ tree.preorder)
    : RetoldAs tree number keep (.walkRoot scope)
        (.walkRoot { scope with root := number scope.root }) where
  retold := by
    intro around node displays
    simp only [Reaction.walkRoot, Subtree.id_renumber,
      same.apart.eq_iff displays.attached attached]
    split <;> rfl
  displays := by
    intro around node _ anchor member
    rw [Reaction.walkRoot] at member
    split at member <;> exact absurd member List.not_mem_nil

end Reaction.RetoldAs

end Reactions

-----------------------------------------------------------------------------------------
-- The reactions of the rules
-----------------------------------------------------------------------------------------

/-- The scope under other numbers. -/
def Scope.renumber (number : NodeId → NodeId) (scope : Scope) : Scope :=
  { scope with root := number scope.root }

namespace Rule

section Rules

variable {tree other : Tree} {number : NodeId → NodeId}

/-- What is asked of a reference has the same answer, unless it leads to what is left over. -/
theorem any_resolve? (same : tree.RenumberedAs other number) {node : Subtree}
    (displays : tree.Displays node) {here there : Declaration → Bool}
    (tests
      : ∀ declaration,
          (∀ id ∈ declaration.id?, id ∈ tree.preorder)
          → there (declaration.renumber number) = here declaration)
    : (other.resolve? (node.renumber number).content).any there
      = ((tree.resolve? node.content).any here && !tree.leadsToLeftOver node.id) := by
  rw [Subtree.content_renumber, same.resolve?, displays.leadsToLeftOver]
  cases lost : tree.refersToLeftOver node.content with
  | true => simp
  | false =>
      cases found : tree.resolve? node.content with
      | none => rfl
      | some declaration =>
          have answered := tests declaration fun id inside => by
            cases declaration with
            | inside _ content =>
                cases Option.mem_def.mp inside
                exact Tree.attached_of_resolve? found lost
            | outside _ => cases inside
          simp [answered]

theorem staticImports_renumber (file : Subtree)
    : Checker.staticImports (file.renumber number)
      = (Checker.staticImports file).map (Subtree.renumber number) := by
  simp only [Checker.staticImports, Subtree.childrenOfKind_renumber, List.flatMap_map,
    List.map_flatMap, List.filterMap_map, List.map_filterMap, Function.comp_def, List.head?_map]

/-- Static imports of an attached file are attached. -/
theorem displays_staticImports (coherent : tree.Coherent) {file anchor : Subtree}
    (displays : tree.Displays file) (member : anchor ∈ Checker.staticImports file)
    : tree.Displays anchor := by
  obtain ⟨imports, isList, static, isStatic, isName⟩ := Checker.children_of_mem_staticImports member
  have ofList := coherent.displays_child displays isList
  exact coherent.displays_child (coherent.displays_child ofList isStatic) isName

/-- What the rule does at nodes of a kind is done at the same nodes under other numbers, with the
reports that do not rest on what is left over.
-/
def RetoldAt (rule : Rule) (tree other : Tree) (number : NodeId → NodeId) (scope : Scope)
    (kind : NodeKind)
    : Prop :=
  Option.Rel (Reaction.RetoldAs tree number (rule.keeps tree))
    (rule.checker.reaction? tree scope (.ofKind kind))
    (rule.checker.reaction? other (scope.renumber number) (.ofKind kind))

theorem retoldAt_methodCount (same : tree.RenumberedAs other number) (limit : Threshold)
    (scope : Scope) (kind : NodeKind)
    : (Rule.anonymousClassMethodCount limit).RetoldAt tree other number scope kind := by
  cases kind with
  | namedClass => exact .some .skip
  | anonymousClass =>
      refine .some
        (.stop (.whole (fun _ => rfl) (fun node _ => ?_) fun node displays _ member => ?_))
      · rw [Subtree.ordinaryMethods_renumber, List.length_map, Subtree.childWithRole?_renumber,
          Option.toList_map, apply_ite (List.map _)]
        rfl
      · split at member
        · exact same.coherent.displays_child displays
            (List.mem_of_find?_eq_some (Option.mem_toList.mp member))
        · cases member
  | _ => exact .none

theorem retoldAt_multipleDeclaration (same : tree.RenumberedAs other number) (scope : Scope)
    (kind : NodeKind)
    : Rule.multipleDeclaration.RetoldAt tree other number scope kind := by
  cases kind with
  | namedClass => exact .some .skip
  | field => exact .some (.walk (.selfAlike (fun _ => rfl) fun node _ => by simp))
  | declarationStatement =>
      refine .some
        (.walk (.whole (fun _ => rfl) (fun node displays => ?_) fun node displays _ member => ?_))
      · simp only [Subtree.role_renumber, Subtree.id_renumber,
          same.parentContent? displays.attached, Subtree.childrenOfKind_renumber, ← List.map_drop,
          apply_ite (List.map _), List.map_nil]
      · dsimp only at member
        split at member
        · cases member
        · exact same.coherent.displays_child displays
            (List.mem_of_mem_filter (List.mem_of_mem_drop member))
  | _ => exact .none

/-- A class is the first of its file under the other numbers if it is the first of its file. -/
theorem isFirstClass_renumber (same : tree.RenumberedAs other number) {file node : Subtree}
    (ofFile : tree.Displays file) (displays : tree.Displays node)
    : ((file.renumber number).childrenOfKind .namedClass).head?.map Subtree.id
        = some (number node.id)
      ↔ (file.childrenOfKind .namedClass).head?.map Subtree.id = some node.id := by
  rw [Subtree.childrenOfKind_renumber, List.head?_map, Option.map_map]
  cases first : (file.childrenOfKind .namedClass).head? with
  | none => simp
  | some child =>
      have ofChild := same.coherent.displays_child ofFile
        (List.mem_of_mem_filter (List.mem_of_head? first))
      simp [same.apart.eq_iff ofChild.attached displays.attached]

theorem retoldAt_staticImport (same : tree.RenumberedAs other number) (scope : Scope)
    (kind : NodeKind)
    : Rule.staticImport.RetoldAt tree other number scope kind := by
  have ofFile {node file : Subtree} (displays : tree.Displays node)
      (beside : (tree.parentSubtree? node.id).filter (·.kind == .file) = some file)
      : tree.Displays file :=
    same.coherent.displays_parent displays.attached (Option.filter_eq_some_iff.mp beside).1
  cases kind with
  | namedClass =>
      refine .some
        (.stop (.whole (fun _ => rfl) (fun node displays => ?_) fun node displays _ member => ?_))
      · rw [Subtree.id_renumber, same.parentSubtree? displays.attached, Option.filter_map]
        simp only [Function.comp_def, Subtree.kind_renumber]
        cases beside : (tree.parentSubtree? node.id).filter (·.kind == .file) with
        | none => rfl
        | some file =>
            simp only [Option.map_some, isFirstClass_renumber same (ofFile displays beside) displays,
              staticImports_renumber]
            split <;> rfl
      · split at member
        · next file beside =>
            split at member
            · exact displays_staticImports same.coherent (ofFile displays beside) member
            · cases member
        · cases member
  | _ => exact .none

/-- The supertypes that are annotation types are the same, but for those that are left over. -/
theorem annotations_renumber (same : tree.RenumberedAs other number) {node : Subtree}
    (displays : tree.Displays node)
    : ((node.renumber number).children.filter fun child =>
        (child.role == .extended || child.role == .implemented)
          && (other.resolve? child.content).any (·.isAnnotationType))
      = ((node.children.filter fun child =>
          (child.role == .extended || child.role == .implemented)
            && (tree.resolve? child.content).any (·.isAnnotationType)).filter
        (Rule.extendsAnnotationType.keeps tree)).map (Subtree.renumber number) := by
  rw [Subtree.children_renumber, List.filter_map, List.filter_filter]
  refine congrArg _ (List.filter_congr fun child member => ?_)
  have asked : (other.resolve? (child.renumber number).content).any (·.isAnnotationType)
      = ((tree.resolve? child.content).any (·.isAnnotationType)
        && !tree.leadsToLeftOver child.id) :=
    any_resolve? same (same.coherent.displays_child displays member) fun declaration _ => by
      cases declaration <;> rfl
  rw [Function.comp_apply, Subtree.role_renumber, asked, ← Bool.and_assoc, Bool.and_comm]
  rfl

theorem retoldAt_extendsAnnotation (same : tree.RenumberedAs other number) {scope : Scope}
    (attached : scope.root ∈ tree.preorder) (kind : NodeKind)
    : Rule.extendsAnnotationType.RetoldAt tree other number scope kind := by
  cases kind with
  | namedClass =>
      refine .some (.stop ⟨fun node displays => ?_, fun node displays anchor member => ?_⟩)
      · simp only [annotations_renumber same displays, Subtree.id_renumber, Subtree.facts_renumber,
          same.level, Scope.renumber, same.apart.eq_iff displays.attached attached]
        split <;> rfl
      · split at member
        · exact same.coherent.displays_child displays (List.mem_of_mem_filter member)
        · cases member
  | _ => exact .none

theorem retoldAt_serializable (same : tree.RenumberedAs other number) {scope : Scope}
    (attached : scope.root ∈ tree.preorder) (kind : NodeKind)
    : Rule.serializableClassInSecureContext.RetoldAt tree other number scope kind := by
  cases kind with
  | namedClass =>
      refine .some
        (.stop (.whole (fun _ => rfl) (fun node displays => ?_) fun node displays _ member => ?_))
      · simp only [Subtree.id_renumber, Subtree.isSerializable_renumber, Subtree.kind_renumber,
          Subtree.childWithRole?_renumber, Option.getD_map, Scope.renumber,
          same.apart.eq_iff displays.attached attached, apply_ite (List.map _), List.map_cons,
          List.map_nil]
      · split at member
        · split at member
          · rw [List.mem_singleton.mp member]
            cases base : node.childWithRole? .baseClass with
            | none => exact displays
            | some child =>
                exact same.coherent.displays_child displays (List.mem_of_find?_eq_some base)
          · rwa [List.mem_singleton.mp member]
        · cases member
  | _ => exact .none

theorem retoldAt_threads (same : tree.RenumberedAs other number) (scope : Scope)
    (kind : NodeKind)
    : Rule.threadStopSuspendResume.RetoldAt tree other number scope kind := by
  cases kind with
  | namedClass => exact .some .skip
  | methodCall =>
      refine .some (.walk (.selfIf fun node displays => ?_))
      rw [any_resolve? same displays fun declaration inside => ?_, ← Bool.and_assoc,
        Subtree.name?_renumber]
      · rfl
      · rw [same.owner? inside]
  | _ => exact .none

theorem retoldAt_locks (same : tree.RenumberedAs other number) (scope : Scope) (kind : NodeKind)
    : Rule.publicFieldAccessedInSynchronizedContext.RetoldAt tree other number scope kind := by
  cases kind with
  | namedClass => exact .some .skip
  | method => exact .some (.walkIn (fun _ node => by simp) fun _ => .nothing)
  | synchronizedStatement => exact .some (.walkIn (fun _ _ => rfl) fun _ => .nothing)
  | referenceExpression =>
      refine .some (.walkIn (fun _ _ => rfl) fun around => .selfIf fun node displays => ?_)
      rw [any_resolve? same displays fun declaration _ => ?_, ← Bool.and_assoc]
      · rfl
      · cases declaration <;> rfl
  | _ => exact .none

/-- By cases on the rule and on the kind. -/
theorem retoldAt (same : tree.RenumberedAs other number) (rule : Rule) {scope : Scope}
    (attached : scope.root ∈ tree.preorder) (kind : NodeKind)
    : rule.RetoldAt tree other number scope kind := by
  cases rule with
  | anonymousClassMethodCount limit => exact retoldAt_methodCount same limit scope kind
  | staticImport => exact retoldAt_staticImport same scope kind
  | multipleDeclaration => exact retoldAt_multipleDeclaration same scope kind
  | extendsAnnotationType => exact retoldAt_extendsAnnotation same attached kind
  | serializableClassInSecureContext => exact retoldAt_serializable same attached kind
  | threadStopSuspendResume => exact retoldAt_threads same scope kind
  | publicFieldAccessedInSynchronizedContext => exact retoldAt_locks same scope kind
  | infiniteLoopStatement =>
      cases kind with
      | namedClass => exact .some .skip
      | forStatement | whileStatement | doWhileStatement =>
          exact .some (.walk (.selfAlike (fun _ => rfl) fun node _ => by simp))
      | _ => exact .none
  | finalMethodInFinalClass =>
      cases kind with
      | method =>
          exact .some (.stop (.selfAlike (fun _ => rfl) fun node displays => by
            simp [same.parentContent? displays.attached]))
      | _ => exact .none
  | multipleReturnPointsPerMethod limit =>
      cases kind with
      | method => exact .some (.stop (.selfAlike (fun _ => rfl) fun node _ => by simp))
      | _ => exact .none
  | pointlessBitwiseExpression =>
      cases kind with
      | namedClass => exact .some .skip
      | binaryExpression =>
          exact .some (.walk (.selfAlike (fun _ => rfl) fun node _ =>
            BitwiseOperation.isSome_pointless?_renumber node))
      | _ => exact .none
  | typeParameterExtendsObject =>
      cases kind with
      | namedClass => exact .some (.walkRoot same attached)
      | typeParameter => exact .some (.walk (.selfAlike (fun _ => rfl) fun node _ => by simp))
      | _ => exact .none
  | chainedMethodCall ignoreFields =>
      cases kind with
      | namedClass => exact .some .skip
      | methodCall =>
          exact .some (.walk (.selfAlike (fun _ => rfl) fun node displays => by
            simp [Checker.isChained, same.findAbove? _ displays.attached, Option.any_map]))
      | _ => exact .none
  | todoComment pattern =>
      cases kind with
      | namedClass => exact .some (.walkRoot same attached)
      | comment => exact .some (.stop (.selfAlike (fun _ => rfl) fun node _ => by simp))
      | _ => exact .none
  | literalAsArgToStringEquals =>
      cases kind with
      | namedClass => exact .some .skip
      | methodCall =>
          exact .some (.walk (.selfAlike (fun _ => rfl) fun node _ =>
            LiteralComparison.isSome_ofCall?_renumber node))
      | _ => exact .none
  | cloneCallsSuperClone =>
      cases kind with
      | method =>
          exact .some (.stop (.selfAlike (fun _ => rfl) fun node displays => by
            simp [same.parentContent? displays.attached]))
      | _ => exact .none

/-- A rule does the same wherever it is called at a node: it speaks of kinds alone. -/
theorem reactionFor?_retold (same : tree.RenumberedAs other number) (rule : Rule) {scope : Scope}
    (attached : scope.root ∈ tree.preorder) (kind : NodeKind)
    : Option.Rel (Reaction.RetoldAs tree number (rule.keeps tree))
        (rule.checker.reactionFor? { tree, scope } kind)
        (rule.checker.reactionFor? { tree := other, scope := scope.renumber number } kind) := by
  refine Checker.reactionFor?_rel (fun callback => ?_) kind
  cases callback with
  | ofKind kind => exact retoldAt same rule attached kind
  | _ => cases rule <;> exact .none

/-- The step of a rule at an attached node is retold at the node under its other number. -/
theorem stepAt_retold (same : tree.RenumberedAs other number) (rule : Rule) {scope : Scope}
    (attached : scope.root ∈ tree.preorder) {node : Subtree} (displays : tree.Displays node)
    (around : Surroundings)
    : rule.checker.stepAt { tree := other, scope := scope.renumber number } around
          (node.renumber number)
        = (rule.checker.stepAt { tree, scope } around node).retold number (rule.keeps tree)
      ∧ ∀ anchor ∈ (rule.checker.stepAt { tree, scope } around node).reports,
          tree.Displays anchor := by
  have reacts := reactionFor?_retold same rule attached node.kind
  rw [Checker.stepAt, Checker.stepAt, Subtree.kind_renumber]
  revert reacts
  generalize rule.checker.reactionFor? { tree, scope } node.kind = here
  generalize rule.checker.reactionFor? { tree := other, scope := scope.renumber number } node.kind
    = there
  rintro (related | _)
  · exact ⟨related.retold around node displays, related.displays around node displays⟩
  · exact ⟨rfl, fun _ member => absurd member List.not_mem_nil⟩

/-- The walk from an attached node finds the same nodes as the walk from it under its other number,
but for those whose reports would rest on what is left over, by induction on the subtree.
-/
theorem found_retold (same : tree.RenumberedAs other number) (rule : Rule) {scope : Scope}
    (attached : scope.root ∈ tree.preorder) {node : Subtree} (displays : tree.Displays node)
    (around : Surroundings)
    : rule.checker.found { tree := other, scope := scope.renumber number } (node.renumber number)
          around
        = ((rule.checker.found { tree, scope } node around).filter (rule.keeps tree)).map
            (Subtree.renumber number)
      ∧ ∀ anchor ∈ rule.checker.found { tree, scope } node around, tree.Displays anchor := by
  induction node using Subtree.induction generalizing around with
  | step node ih =>
      obtain ⟨step, reported⟩ := stepAt_retold same rule attached displays around
      have below (around : Surroundings) (child : Subtree) (member : child ∈ node.children) :=
        ih child member (same.coherent.displays_child displays member) around
      rw [Checker.found_eq, Checker.found_eq, step, Subtree.children_renumber, List.filter_append,
        List.map_append, Step.retold]
      cases (rule.checker.stepAt { tree, scope } around node).below with
      | none => exact ⟨rfl, by simpa using reported⟩
      | some inner =>
          simp only [Option.elim_some]
          rw [List.flatMap_map, List.filter_flatMap, List.map_flatMap,
            List.flatMap_congr fun child member => (below inner child member).1]
          refine ⟨rfl, fun anchor member => ?_⟩
          rcases List.mem_append.mp member with found | here
          · obtain ⟨child, among, inside⟩ := List.mem_flatMap.mp found
            exact (below inner child among).2 anchor inside
          · exact reported anchor here

-----------------------------------------------------------------------------------------
-- Diagnostics
-----------------------------------------------------------------------------------------

/-- What a rule says about an attached node is the same under other numbers. -/
theorem message_renumber (same : tree.RenumberedAs other number) (rule : Rule) {anchor : Subtree}
    (displays : tree.Displays anchor)
    : rule.checker.message other (anchor.renumber number)
      = rule.checker.message tree anchor := by
  cases rule with
  | anonymousClassMethodCount limit =>
      simp only [checker, Checker.anonymousClassMethodCount, Subtree.id_renumber,
        same.parentSubtree? displays.attached, Option.elim_map, Function.comp_def,
        Subtree.ordinaryMethods_renumber, List.length_map]
  | pointlessBitwiseExpression =>
      simp only [checker, Checker.pointlessBitwiseExpression,
        BitwiseOperation.ofExpression?_renumber, Option.elim_map, Function.comp_def,
        BitwiseOperation.replacement_renumber]
  | multipleReturnPointsPerMethod limit =>
      simp only [checker, Checker.multipleReturnPointsPerMethod, Subtree.returnPointCount_renumber]
  | literalAsArgToStringEquals =>
      simp only [checker, Checker.literalAsArgToStringEquals, Subtree.sourceText_renumber,
        Subtree.name?_renumber]
  | extendsAnnotationType =>
      simp only [checker, Checker.extendsAnnotationType, Subtree.id_renumber,
        same.parentContent? displays.attached]
  | _ => rfl

end Rules

end Rule

/-- The diagnostic with its node under another number. -/
def Diagnostic.renumber (number : NodeId → NodeId) (diagnostic : Diagnostic) : Diagnostic :=
  { diagnostic with anchor := number diagnostic.anchor }

namespace Rule

section Rules

variable {tree other : Tree} {number : NodeId → NodeId}

theorem diagnose_renumber (same : tree.RenumberedAs other number) (rule : Rule) (scope : Scope)
    (options : PassOptions) {anchor : Subtree} (displays : tree.Displays anchor)
    : rule.diagnose { tree := other, scope := scope.renumber number, options }
        (anchor.renumber number)
      = (rule.diagnose { tree, scope, options } anchor).renumber number := by
  simp only [diagnose, Profile.diagnose, Diagnostic.renumber, message_renumber same rule displays,
    Subtree.id_renumber, same.location? displays.attached, Subtree.shownText_renumber]

/-- The passes over the attached part are those over the tree. -/
theorem collect_renumber (same : tree.RenumberedAs other number) (kinds : List ScopeKind)
    : Scope.collect other kinds = (Scope.collect tree kinds).map (Scope.renumber number) := by
  have made : ∀ id ∈ tree.preorder,
      (Scope.ofNode? other ∘ number) id = (Scope.ofNode? tree id).map (Scope.renumber number) := by
    intro id attached
    rw [Function.comp_apply, Scope.ofNode?, Scope.ofNode?, same.content? attached]
    cases tree.content? id with
    | none => rfl
    | some content =>
        simp only [Option.bind_eq_bind, Option.bind_some]
        cases ScopeKind.ofNodeKind? content.kind <;> rfl
  rw [Scope.collect, Scope.collect, same.preorder, List.filterMap_map,
    List.filterMap_congr made, ← List.map_filterMap, List.filter_map]
  rfl

/-- A pass over an attached scope finds the same nodes under other numbers, but for those whose
reports would rest on what is left over, and nodes that are attached.
-/
theorem anchorsIn_renumber (same : tree.RenumberedAs other number) (rule : Rule) {scope : Scope}
    (attached : scope.root ∈ tree.preorder)
    : rule.anchorsIn other (scope.renumber number)
        = ((rule.anchorsIn tree scope).filter (rule.keeps tree)).map (Subtree.renumber number)
      ∧ ∀ anchor ∈ rule.anchorsIn tree scope, tree.Displays anchor := by
  obtain ⟨root, isRoot, displays⟩ := same.coherent.displays_exists attached
  have there : other.subtree? (scope.renumber number).root = some (root.renumber number) := by
    rw [← (same.displays displays).shown, Subtree.id_renumber, isRoot]
    rfl
  have here : tree.subtree? scope.root = some root := isRoot ▸ displays.shown
  rw [anchorsIn, anchorsIn, there, here]
  exact found_retold same rule attached displays { }

/-- A run that nobody stops reports of the attached part what it reports of the tree, under the
other numbers, without the reports that rest on a declaration that is left over.
-/
theorem inspectTree_renumber (same : tree.RenumberedAs other number) (rule : Rule)
    (options : PassOptions) {flag : Option CancelFlag} (idle : ∀ held ∈ flag, held = { })
    : (Inspection.inspectTree rule other options flag).reported
      = ((Inspection.inspectTree rule tree options flag).reported.filter
          (!rule.restsOnLeftOver tree ·.anchor)).map (Diagnostic.renumber number) := by
  rw [Inspection.inspectTree, Inspection.inspectTree,
    rule.inspectScopes_eq same.otherCoherent.toLinked options _ idle,
    rule.inspectScopes_eq same.coherent.toLinked options _ idle, collect_renumber same,
    List.flatMap_map, List.filter_flatMap, List.map_flatMap]
  refine List.flatMap_congr fun scope member => ?_
  obtain ⟨anchors, displays⟩ :=
    anchorsIn_renumber same rule (Scope.mem_collect_iff.mp member).1
  rw [anchors, List.filter_map, List.map_map, List.map_map]
  refine List.map_congr_left fun anchor among => ?_
  exact diagnose_renumber same rule scope options (displays anchor (List.mem_of_mem_filter among))

end Rules

end Rule

end TreeLint
