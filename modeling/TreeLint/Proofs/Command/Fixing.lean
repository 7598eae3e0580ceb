import TreeLint.Command.Basic
import TreeLint.Proofs.Suite.Reconfiguration
import TreeLint.Proofs.Tree.Documents
import TreeLint.Proofs.Workspace.Writing

/-! What the command that fixes a file writes when there is nothing to fix. The document is written
with its language level, and with the path of the file that it was read from if it gave none. Main
result: apart from these two the file says what it said, and no other file is touched.
-/

namespace TreeLint

/-- A path is no container. -/
theorem Document.depth_withPath_le (document : Document) (path : Option String) {room : Nat}
    (shallow : document.toJson.depth ≤ room + 1)
    : ({ document with path } : Document).toJson.depth ≤ room + 1 := by
  rw [toJson_eq, Json.depth_record_le_iff] at shallow ⊢
  simpa [fields] using shallow

/-- Diagnostics without fixes leave a tree alone, by induction on the diagnostics. -/
theorem applyAll_fixless {diagnostics : List Diagnostic}
    (fixless : ∀ diagnostic ∈ diagnostics, diagnostic.fix = none) (tree : Tree)
    : applyAll diagnostics tree = ({ }, tree) := by
  have idle (state : FixSummary × Tree) (rest : List Diagnostic)
      (none : ∀ diagnostic ∈ rest, diagnostic.fix = none)
      : rest.foldl FixSummary.step state = state := by
    induction rest with
    | nil => rfl
    | cons diagnostic rest ih =>
        obtain ⟨here, later⟩ := List.forall_mem_cons.mp none
        have still : FixSummary.step state diagnostic = state := by
          rw [FixSummary.step, here]
          rfl
        rw [List.foldl_cons, still, ih later]
  refine idle _ _ fun diagnostic member => fixless diagnostic (List.mem_reverse.mp member)

namespace Command

/-- The tree of a file is that of its document, with the path of the file for one that the document
does not give.
-/
theorem treeOfFile?_eq (path text : String)
    : treeOfFile? path text
      = (Document.read? text).map fun document =>
          Tree.ofDocument { document with path := some (document.path.getD path) } := by
  rw [treeOfFile?, Tree.read?, Option.map_map]
  refine congrArg (fun complete => (Document.read? text).map complete) ?_
  funext document
  obtain ⟨own, source, level, readOnly, root⟩ := document
  cases own <;> rfl

/-- A tree is read from a file with a document. -/
theorem readTree_of_read? {workspace : Workspace} {path text : String} {document : Document}
    (found : workspace.read path = .ok text) (isRead : Document.read? text = some document)
    : readTree workspace path
      = .ok (Tree.ofDocument { document with path := some (document.path.getD path) }) := by
  rw [readTree, found]
  simp only [treeOfFile?_eq, isRead, Option.map_some]

/-- The text of the tree of a file is read again, with the level and the path that the tree got. -/
theorem read?_render_of_read? {text : String} {document : Document}
    (isRead : Document.read? text = some document) (path : String)
    : Document.read? (Tree.ofDocument { document with path := some path }).render
      = some { document.withLevel with path := some path } := by
  have shallow : ({ document with path := some path } : Document).withLevel.toJson.depth
      ≤ nestingLimit :=
    Document.depth_withLevel_le _ (document.depth_withPath_le _ (Document.depth_of_read? isRead))
  rw [Tree.render, Document.read?_render, Tree.toDocument_ofDocument, if_pos shallow]
  rfl

/-- Once all that it reads is there and its result can be written, the command writes the tree with
its fixes, and touches no other file.
-/
theorem fix_writes {environment : Environment} {named : Option String} {options : FixOptions}
    {settings : Settings} {suite : Suite Rule} {tree : Tree}
    (configured : readSettings environment options.file named = .ok settings)
    (built : buildSuite { settings, interactive := some true, only := options.rules } = .ok suite)
    (found : readTree environment.workspace options.file = .ok tree) (writable : tree.writable)
    (canWrite : environment.workspace.CanWrite (options.output.getD options.file))
    : ∃ completion,
        fix environment named options = .ok completion
        ∧ completion.printed
          = summaryLine (fixTree suite tree).1 (options.output.getD options.file)
        ∧ completion.workspace.read (options.output.getD options.file)
          = .ok (fixTree suite tree).2.render
        ∧ ∀ other old,
            environment.workspace.resolve other
              ≠ environment.workspace.resolve (options.output.getD options.file)
            → environment.workspace.read other = .ok old
            → completion.workspace.read other = .ok old := by
  obtain ⟨after, written, reads, others⟩ := canWrite.write (fixTree suite tree).2.render
  let printed := summaryLine (fixTree suite tree).1 (options.output.getD options.file)
  refine ⟨{ workspace := after, printed }, ?_, rfl, reads, others⟩
  simp [printed, fix, configured, built, found, writable, written, bind, Except.bind, pure, Except.pure]

/-- Where the analysis offers no fix, the command writes the document that it has read, with its
language level and a path, and touches no other file.
-/
theorem fix_unchanged {environment : Environment} {named : Option String} {options : FixOptions}
    {settings : Settings} {suite : Suite Rule} {text : String} {document : Document}
    (configured : readSettings environment options.file named = .ok settings)
    (built : buildSuite { settings, interactive := some true, only := options.rules } = .ok suite)
    (found : environment.workspace.read options.file = .ok text)
    (isRead : Document.read? text = some document) (writable : document.readOnly = false)
    (fixless
      : ∀ tree ∈ treeOfFile? options.file text,
          ∀ diagnostic ∈ (suite.analyze tree { }).1.diagnostics, diagnostic.fix = none)
    (canWrite : environment.workspace.CanWrite (options.output.getD options.file))
    : ∃ completion written,
        fix environment named options = .ok completion
        ∧ completion.printed = summaryLine { } (options.output.getD options.file)
        ∧ completion.workspace.read (options.output.getD options.file) = .ok written
        ∧ Document.read? written
          = some { document.withLevel with path := some (document.path.getD options.file) }
        ∧ ∀ other old,
            environment.workspace.resolve other
              ≠ environment.workspace.resolve (options.output.getD options.file)
            → environment.workspace.read other = .ok old
            → completion.workspace.read other = .ok old := by
  let tree := Tree.ofDocument { document with path := some (document.path.getD options.file) }
  have loaded : treeOfFile? options.file text = some tree := by
    rw [treeOfFile?_eq, isRead, Option.map_some]
  have mayWrite : tree.writable := congrArg Bool.not writable
  have idle : fixTree suite tree = ({ }, tree) := applyAll_fixless (fixless tree loaded) tree
  obtain ⟨completion, done, printed, written, others⟩ :=
    fix_writes configured built (readTree_of_read? found isRead) mayWrite canWrite
  rw [idle] at printed written
  exact ⟨completion, tree.render, done, printed, written, read?_render_of_read? isRead _, others⟩

-----------------------------------------------------------------------------------------
-- A document without a path
-----------------------------------------------------------------------------------------

/-- A file with an endless loop, for which no fix is offered. Its document gives no path. -/
def endlessFile : Document where
  root :=
    Outline.file.withChild <| (Outline.namedClass "A").withChild <|
      (Outline.method "m").withChild <| Outline.codeBlock.withChild <|
        ((Outline.ofKind .whileStatement).withChild
          ((Outline.literal "true").withRole .condition)).withChild Outline.codeBlock

/-- The tree of the file. -/
def endlessTree : Tree :=
  .ofDocument { endlessFile with path := some "Loop.json" }

/-- A directory with the file. -/
def endlessFiles : Environment where
  workspace := { files := [(["Loop.json"], endlessFile.render)] }

/-- All rules, with the settings of a directory without settings. -/
def endlessSuite : Suite Rule :=
  (Suite.prepared Rule.all true false none).reconfigure { }

/-- The command finds all that it needs in the directory. One problem is reported, and no fix for it.
-/
theorem endlessFiles_ready
    : readSettings endlessFiles "Loop.json" none = .ok { }
      ∧ buildSuite { interactive := some true } = .ok endlessSuite
      ∧ endlessFiles.workspace.read "Loop.json" = .ok endlessFile.render
      ∧ Document.read? endlessFile.render = some endlessFile
      ∧ treeOfFile? "Loop.json" endlessFile.render = some endlessTree
      ∧ (endlessSuite.analyze endlessTree { }).1.diagnostics.map (·.fix) = [none]
      ∧ endlessFiles.workspace.CanWrite "Loop.json" := by
  have source : SettingsSource.find endlessFiles "Loop.json" none = .none := by decide +kernel
  have fits : Suite.error? (Rule.all.map Inspection.profile) [] = none := by decide +kernel
  have place : endlessFiles.workspace.resolve "Loop.json" = .ok ["Loop.json"] := by
    decide +kernel
  have isRead : Document.read? endlessFile.render = some endlessFile := by
    rw [Document.read?_render, if_pos (by decide +kernel)]
  refine ⟨?_, ?_, ?_, isRead, ?_, by decide +kernel, ["Loop.json"], place, by decide +kernel⟩
  · rw [readSettings, source]
    rfl
  · rw [buildSuite, Suite.build_eq, Option.getD_none, fits]
    rfl
  · exact Workspace.read_eq_ok_iff.mpr ⟨["Loop.json"], place, rfl⟩
  · rw [treeOfFile?_eq, isRead]
    rfl

theorem endlessTree_fixless
    : ∀ tree ∈ treeOfFile? "Loop.json" endlessFile.render,
        ∀ diagnostic ∈ (endlessSuite.analyze tree { }).1.diagnostics, diagnostic.fix = none := by
  obtain ⟨_, _, _, _, loaded, told, _⟩ := endlessFiles_ready
  intro tree isTree diagnostic member
  cases loaded.symm.trans isTree
  have among := List.mem_map_of_mem (f := (·.fix)) member
  rw [told] at among
  exact List.mem_singleton.mp among

/-- The file is written with its language level and its path. -/
theorem endlessFile_completed
    : ∃ completion written,
        fix endlessFiles none { file := "Loop.json" } = .ok completion
        ∧ completion.printed = "Applied 0 fix(es), skipped 0 in Loop.json\n"
        ∧ completion.workspace.read "Loop.json" = .ok written
        ∧ Document.read? written
          = some { endlessFile with path := some "Loop.json", languageLevel := some 8 } := by
  obtain ⟨configured, built, found, isRead, _, _, canWrite⟩ := endlessFiles_ready
  obtain ⟨completion, written, done, printed, reads, described, _⟩ :=
    @fix_unchanged endlessFiles none { file := "Loop.json" } _ _ _ _ configured built found isRead
      rfl endlessTree_fixless canWrite
  exact ⟨completion, written, done, printed.trans (by decide +kernel), reads, described⟩

/-- So the file does not say what it said, whatever the language level. -/
theorem endlessFile_gainsPath
    : ∃ completion written again,
        buildSuite { interactive := some true } = .ok endlessSuite
        ∧ (∀ tree ∈ treeOfFile? "Loop.json" endlessFile.render,
            ∀ diagnostic ∈ (endlessSuite.analyze tree { }).1.diagnostics, diagnostic.fix = none)
        ∧ Document.read? endlessFile.render = some endlessFile
        ∧ fix endlessFiles none { file := "Loop.json" } = .ok completion
        ∧ completion.workspace.read "Loop.json" = .ok written
        ∧ Document.read? written = some again
        ∧ ∀ languageLevel, again ≠ { endlessFile with languageLevel } := by
  obtain ⟨configured, built, found, isRead, loaded, _, canWrite⟩ := endlessFiles_ready
  have idle : fixTree endlessSuite endlessTree = ({ }, endlessTree) :=
    applyAll_fixless (endlessTree_fixless endlessTree loaded) endlessTree
  obtain ⟨completion, done, _, written, _⟩ :=
    @fix_writes endlessFiles none { file := "Loop.json" } _ _ _ configured built
      (readTree_of_read? found isRead) rfl canWrite
  have path : endlessFile.path.getD "Loop.json" = "Loop.json" := rfl
  rw [path, ← endlessTree, idle] at written
  refine ⟨completion, _, _, built, endlessTree_fixless, isRead, done, written,
    read?_render_of_read? isRead "Loop.json", fun level same => ?_⟩
  have gained : some "Loop.json" = endlessFile.path := congrArg Document.path same
  cases gained

end Command

end TreeLint
