import TreeLint.Proofs.Fix.Reachability
import TreeLint.Proofs.Rule.Independence
import TreeLint.Proofs.Suite.Fixing
import TreeLint.Proofs.Suite.Passes
import TreeLint.Proofs.Text.Positions

/-! Runs of the built-in rules over any tree that occurs. Main result: whoever stops a run, no pass
breaks down, everything that is reported is a node of the arena, and neither the run nor a look-up
ever looks at anything behind the arena or cuts a text outside it.
-/

namespace TreeLint

namespace Suite

-----------------------------------------------------------------------------------------
-- Runs over trees that answer alike
-----------------------------------------------------------------------------------------

section Passes

variable {ι : Type} [Inspection ι] {tree other : Tree}

/-- The same scopes are inspected in both trees, and each pass over one of them does the same. -/
structure PassesAlike (ι : Type) [Inspection ι] (tree other : Tree) : Prop where
  collects : ∀ kinds, Scope.collect other kinds = Scope.collect tree kinds
  each
    : ∀ kinds, ∀ scope ∈ Scope.collect tree kinds,
        ∀ (inspection : ι) (options : PassOptions) (flag : Option CancelFlag),
          Inspection.inspectScope inspection { tree := other, scope, options } flag
          = Inspection.inspectScope inspection { tree, scope, options } flag

/-- The passes over some scopes do the same in both trees, if each of them does, by induction on the
scopes.
-/
theorem runScopes_same {scopes : List Scope}
    (each
      : ∀ scope ∈ scopes, ∀ (inspection : ι) (options : PassOptions) (flag : Option CancelFlag),
          Inspection.inspectScope inspection { tree := other, scope, options } flag
          = Inspection.inspectScope inspection { tree, scope, options } flag)
    (suite : Suite ι) (clock : Nat → Duration) (severity : Option Severity) (timed : Timed ι)
    (run : Run)
    : suite.runScopes other clock severity scopes timed run
      = suite.runScopes tree clock severity scopes timed run := by
  induction scopes generalizing timed run with
  | nil => rfl
  | cons scope rest ih =>
      have later := ih fun next member => each next (List.mem_cons_of_mem scope member)
      simp only [runScopes, Timed.run, each scope List.mem_cons_self, later]

/-- The passes of some entries do the same in both trees, by induction on the entries. -/
theorem runEntries_same (alike : PassesAlike ι tree other) (suite : Suite ι)
    (clock : Nat → Duration) (entries : List (SuiteEntry ι)) (run : Run)
    : suite.runEntries other clock entries run = suite.runEntries tree clock entries run := by
  induction entries generalizing run with
  | nil => rfl
  | cons entry rest ih =>
      have scopes (kinds : List ScopeKind) := runScopes_same (alike.each kinds) suite clock
      simp only [runEntries, alike.collects, scopes, ih]

/-- A run does the same in both trees, if each pass does. -/
theorem analyze_same (alike : PassesAlike ι tree other) (suite : Suite ι) (session : Session)
    (clock : Nat → Duration)
    : suite.analyze other session clock = suite.analyze tree session clock := by
  rw [analyze, analyze, runEntries_same alike]

end Passes

-----------------------------------------------------------------------------------------
-- Runs of the rules
-----------------------------------------------------------------------------------------

/-- A run of rules does the same in a tree that gives the same answers. -/
theorem analyze_sameAnswers {tree other : Tree} (coherent : tree.Coherent)
    (same : tree.SameAnswers other) (suite : Suite Rule) (session : Session)
    (clock : Nat → Duration)
    : suite.analyze other session clock = suite.analyze tree session clock := by
  refine analyze_same ⟨same.collect, fun kinds scope member rule options flag => ?_⟩ suite session
    clock
  have inside : scope.root < tree.size := coherent.closed.scopes kinds scope member
  let context : PassContext := { tree, scope, options }
  exact @Rule.inspectScope_same other context coherent same rule inside flag

/-- A pass of a rule over a linked tree does not break down, whoever stops it. -/
theorem breakdown_inspectScope (rule : Rule) {context : PassContext}
    (linked : context.tree.Linked) (flag : Option CancelFlag)
    : (Inspection.inspectScope rule context flag).breakdown = none :=
  (rule.inspectScope_partOf context flag).breakdown.trans (rule.inspectScope_calm context linked).2

/-- Whatever tree occurs, whatever rules run over it with whatever settings, and whoever stops them:
no pass fails, and everything that is reported is in the arena. So is every number that the arena
keeps or that comes of it, and whatever stood behind the arena, every look-up would have the same
answer, and the run would have the same result. Every location is read off the text by cutting it at
bytes, never outside it or inside a character.
-/
theorem analyze_staysInside {tree : Tree} (reachable : tree.Reachable) (suite : Suite Rule)
    (session : Session) (clock : Nat → Duration)
    : let result := (suite.analyze tree session clock).1
      result.failures = []
      ∧ (∀ diagnostic ∈ result.diagnostics, tree.contains diagnostic.anchor)
      ∧ tree.Closed
      ∧ (∀ behind : Array Node,
          (∀ node ∈ behind, node.content.label = none)
          → tree.SameAnswers (tree.extend behind)
            ∧ suite.analyze (tree.extend behind) session clock
              = suite.analyze tree session clock)
      ∧ ∀ id location source,
          tree.location? id = some location
          → tree.source = some source
          → Text.readPosition? source.toList location.offset.toNat
            = some (location.line, location.column) := by
  have coherent := reachable.coherent
  refine ⟨?_, ?_, coherent.closed, fun behind unlabelled => ?_, ?_⟩
  · refine analyze_sound (fun rule context flag ofTree => ?_) suite session clock
    exact breakdown_inspectScope rule (ofTree ▸ coherent.toLinked) flag
  · refine analyze_keeps (fun rule context flag ofTree diagnostic member => ?_) suite session clock
    exact ofTree ▸ Tree.contains_iff.mpr (Rule.anchor_lt_size member)
  · have same := (tree.continuedBy_extend unlabelled).sameAnswers coherent
    exact ⟨same, analyze_sameAnswers coherent same suite session clock⟩
  · intro id location source located written
    rw [Tree.location?, written] at located
    obtain ⟨content, _, located⟩ := Option.bind_eq_some_iff.mp located
    obtain ⟨span, _, located⟩ := Option.bind_eq_some_iff.mp located
    cases located
    exact Text.readPosition?_eq source span.offset.toNat

/-- A class that extends an annotation type of the same file. The place of the supertype starts
inside a character of the second line.
-/
def annotatedFile : Document where
  source := some "@interface A { }\nä A"
  languageLevel := some 8
  root :=
    Outline.file.append
      [((Outline.namedClass "A").withLabel "a").withClassKind .annotationType,
        (Outline.namedClass "B").withChild
          ((((Outline.reference "A").withRole .extended).resolvingTo (.labelled "a")).withSpan 18 1)]

/-- The rule about annotation types as supertypes, alone. -/
def annotationSuite : Suite Rule where
  entries := [{ timed := { inspection := .extendsAnnotationType }, enabled := true }]
  interactive := false

/-- The annotation type is cut off, but the supertype still refers to it and is reported. -/
theorem annotatedFile_staysInside
    : let tree := (Tree.ofDocument annotatedFile).afterCall (.detach 1)
      let behind : Array Node :=
        #[{ content := { kind := .file }, parent := some 9, children := [1, 12] }]
      let result := (annotationSuite.analyze tree { }).1
      tree.Reachable
      ∧ result.diagnostics.map (fun diagnostic => (diagnostic.anchor, diagnostic.location))
        = [(3, some { file := "<memory>", line := 2, column := 1, offset := 18, length := 1 })]
      ∧ result.failures = []
      ∧ annotationSuite.analyze (tree.extend behind) { } = annotationSuite.analyze tree { }
      ∧ Text.readPosition? "@interface A { }\nä A".toList 18 = some (2, 1) := by
  intro tree behind result
  have reachable : tree.Reachable := .called (.loaded annotatedFile) (.detach 1)
  obtain ⟨sound, _, _, apart, cut⟩ := analyze_staysInside reachable annotationSuite { } fun _ => .zero
  refine ⟨reachable, by decide +kernel, sound, (apart behind (by decide +kernel)).2, ?_⟩
  exact cut 3 { file := "<memory>", line := 2, column := 1, offset := 18, length := 1 } _
    (by decide +kernel) rfl

end Suite

end TreeLint
