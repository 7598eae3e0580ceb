import TreeLint.Command.Basic
import TreeLint.Proofs.Fix.Depths
import TreeLint.Proofs.Suite.FixCounts
import TreeLint.Proofs.Suite.Fixing
import TreeLint.Proofs.Tree.Documents

/-! Whether what a round of fixing leaves can be read again. Reading has a limit for the depth of a
document, and writing has none. Main result: the text of a tree that was read is read again after a
round of fixes, unless a field has got a written type at a level that no document may have.
-/

namespace TreeLint

open Relation

namespace Tree

variable {original tree after : Tree} {typed : NodeId → Prop} {bottom : Nat}

-----------------------------------------------------------------------------------------
-- Levels and needs
-----------------------------------------------------------------------------------------

/-- Every node takes a container of its own. -/
theorem Coherent.level_le_of_need (coherent : tree.Coherent) {id : NodeId}
    (attached : tree.Attached id) (fits : tree.need id ≤ 2 * bottom + 2)
    : tree.level id ≤ bottom := by
  have old := coherent.lt_size_of_mem_preorder (coherent.attached_iff.mp attached)
  obtain ⟨content, known⟩ := content?_exists old
  have positive := content.nesting_pos
  rw [need_of_content? known] at fits
  omega

/-- A node that says little fits at a level that is not too deep. -/
theorem need_le_of_level {id : NodeId} {content : Content}
    (known : tree.content? id = some content) (little : content.nesting ≤ 2)
    (high : tree.level id ≤ bottom)
    : tree.need id ≤ 2 * bottom + 2 := by
  rw [need_of_content? known]
  omega

/-- A written type says little. -/
theorem TypeOf.nesting_le_two {field id : NodeId} (typeOf : tree.TypeOf field id)
    {content : Content} (known : tree.content? id = some content)
    : content.nesting ≤ 2 := by
  obtain ⟨typeName, isType⟩ := typeOf.content
  cases known.symm.trans isType
  exact Outline.typeElement_nesting typeName

-----------------------------------------------------------------------------------------
-- What a round of fixing keeps
-----------------------------------------------------------------------------------------

/-- The node is the new written type of one of the fields, one level below the bottom. -/
structure Overhangs (original : Tree) (typed : NodeId → Prop) (bottom : Nat) (tree : Tree)
    (id : NodeId) : Prop where
  new : original.size ≤ id
  deep : tree.level id = bottom + 1
  typeOf : ∃ field, typed field ∧ tree.TypeOf field id

/-- Everything that is attached fits above the bottom, but for new written types of the fields. -/
structure Bounded (original : Tree) (typed : NodeId → Prop) (bottom : Nat) (tree : Tree) : Prop where
  coherent : tree.Coherent
  grows : original.size ≤ tree.size
  fits
    : ∀ id,
        tree.Attached id
        → tree.need id ≤ 2 * bottom + 2 ∨ original.Overhangs typed bottom tree id

namespace Bounded

variable (bounded : original.Bounded typed bottom tree)

include bounded

/-- A node that does not overhang is not below the bottom. -/
theorem level_le {id : NodeId} (attached : tree.Attached id)
    (inside : ¬original.Overhangs typed bottom tree id)
    : tree.level id ≤ bottom :=
  bounded.coherent.level_le_of_need attached ((bounded.fits id attached).resolve_right inside)

/-- Nothing hangs below a node that overhangs. -/
theorem childless {id : NodeId} (attached : tree.Attached id)
    (overhangs : original.Overhangs typed bottom tree id) (child : NodeId)
    : tree.parent? child ≠ some id := by
  intro up
  have deeper := bounded.coherent.level_of_parent up
  rw [overhangs.deep] at deeper
  by_cases lower : original.Overhangs typed bottom tree child
  · have same := deeper.symm.trans lower.deep
    omega
  · have high := bounded.level_le (attached.tail up) lower
    omega

variable {fix : Fix} {anchor : NodeId} (noDeeper : tree.NoDeeper fix anchor after)
  (old : anchor < original.size)

include noDeeper old

/-- What was there fits still, or overhangs as it did. -/
theorem fits_old {id : NodeId} (present : id < tree.size) (attached : after.Attached id)
    : after.need id ≤ 2 * bottom + 2 ∨ original.Overhangs typed bottom after id := by
  obtain ⟨before, higher⟩ := noDeeper.kept id present attached
  obtain ⟨content, known⟩ := content?_exists present
  obtain ⟨now, knownNow, less⟩ := noDeeper.contents id content known
  rcases bounded.fits id before with fits | overhangs
  · rw [need_of_content? known] at fits
    rw [need_of_content? knownNow]
    exact .inl (by omega)
  · obtain ⟨field, among, typeOf⟩ := overhangs.typeOf
    have little := Nat.le_trans less (typeOf.nesting_le_two known)
    rw [overhangs.deep] at higher
    rcases Nat.lt_or_eq_of_le higher with high | deep
    · exact .inl (need_le_of_level knownNow little (Nat.le_of_lt_succ high))
    · have other : id ≠ anchor := Nat.ne_of_gt (Nat.lt_of_lt_of_le old overhangs.new)
      have still := noDeeper.types field id typeOf other (bounded.childless before overhangs) attached
      exact .inr ⟨overhangs.new, deep, field, among, still⟩

/-- What is new fits, or is a written type that overhangs. -/
theorem fits_new (isTyped : fix = .splitDeclaration → typed anchor) {id : NodeId}
    (new : tree.size ≤ id) (attached : after.Attached id)
    : after.need id ≤ 2 * bottom + 2 ∨ original.Overhangs typed bottom after id := by
  have present :=
    noDeeper.coherent.lt_size_of_mem_preorder (noDeeper.coherent.attached_iff.mp attached)
  obtain ⟨content, known⟩ := content?_exists present
  obtain ⟨little, ⟨other, before, noType, higher⟩ | ⟨isSplit, typeOf, before, higher⟩⟩ :=
    noDeeper.news id content new attached known
  · have inside : ¬original.Overhangs typed bottom tree other := fun overhangs =>
      let ⟨field, _, typeOf⟩ := overhangs.typeOf
      noType field typeOf
    have high := Nat.le_trans higher (bounded.level_le before inside)
    exact .inl (need_le_of_level known little high)
  · have inside : ¬original.Overhangs typed bottom tree anchor := fun overhangs =>
      Nat.not_le_of_lt old overhangs.new
    have high := Nat.le_trans higher (Nat.succ_le_succ (bounded.level_le before inside))
    rcases Nat.lt_or_eq_of_le high with high | deep
    · exact .inl (need_le_of_level known little (Nat.le_of_lt_succ high))
    · exact .inr ⟨Nat.le_trans bounded.grows new, deep, anchor, isTyped isSplit, typeOf⟩

/-- A step that makes a tree no deeper keeps it bounded. -/
theorem step (isTyped : fix = .splitDeclaration → typed anchor)
    : original.Bounded typed bottom after where
  coherent := noDeeper.coherent
  grows := Nat.le_trans bounded.grows noDeeper.grows
  fits id attached := by
    by_cases present : id < tree.size
    · exact bounded.fits_old noDeeper old present attached
    · exact bounded.fits_new noDeeper old isTyped (Nat.le_of_not_lt present) attached

omit noDeeper

/-- So does each step of a fix, by induction on the steps. -/
theorem steps (isTyped : fix = .splitDeclaration → typed anchor)
    (way : ReflTransGen (·.NoDeeper fix anchor ·) tree after)
    : original.Bounded typed bottom after := by
  induction way with
  | refl => exact bounded
  | tail _ next ih => exact ih.step next old isTyped

omit old

/-- And so do the fixes of diagnostics of the original tree, by induction on the diagnostics. -/
theorem foldl_step {diagnostics : List Diagnostic}
    (each
      : ∀ diagnostic ∈ diagnostics,
          diagnostic.anchor < original.size
          ∧ (diagnostic.fix = some .splitDeclaration → typed diagnostic.anchor))
    (summary : FixSummary)
    : original.Bounded typed bottom (diagnostics.foldl FixSummary.step (summary, tree)).2 := by
  induction diagnostics generalizing tree summary with
  | nil => exact bounded
  | cons diagnostic rest ih =>
      obtain ⟨⟨old, isTyped⟩, others⟩ := List.forall_mem_cons.mp each
      have next : original.Bounded typed bottom (FixSummary.step (summary, tree) diagnostic).2 := by
        rcases @FixSummary.step_cases (summary, tree) bounded.coherent diagnostic with
          ⟨_, same⟩ | ⟨fix, offered, succeeded, _⟩
        · rw [same]
          exact bounded
        · refine bounded.steps old (fun isSplit => isTyped ?_)
            (Fix.applyAt_noDeeper bounded.coherent succeeded)
          rw [offered, isSplit]
      exact ih next others _

end Bounded

/-- A tree with a document that is read is bounded. -/
theorem Coherent.bounded (coherent : tree.Coherent)
    (shallow : tree.toDocument.toJson.depth ≤ 2 * bottom + 3)
    : tree.Bounded typed bottom tree where
  coherent := coherent
  grows := Nat.le_refl _
  fits id attached := .inl (coherent.depth_toDocument_le_iff.mp shallow id attached)

end Tree

namespace Command

open TreeLint.Tree

/-- The text of a tree that was read is read again after a round of fixing, exactly if no field that
was fixed has got a written type with more than 62 nodes above it. What is read then is the document
that was written.
-/
theorem fixTree_readable_iff {text : String} {tree : Tree} (isRead : Tree.read? text = some tree)
    (suite : Suite Rule)
    : let after := (fixTree suite tree).2
      (∃ again ∈ Tree.read? after.render, again.toDocument = after.toDocument)
      ↔ ∀ diagnostic ∈ (suite.analyze tree { }).1.diagnostics,
          diagnostic.fix = some .splitDeclaration
          → ∀ id,
              tree.size ≤ id
              → after.Attached id
              → after.TypeOf diagnostic.anchor id
              → after.level id ≤ 62 := by
  intro after
  let typed (field : NodeId) : Prop :=
    ∃ diagnostic ∈ (suite.analyze tree { }).1.diagnostics,
      diagnostic.fix = some .splitDeclaration ∧ diagnostic.anchor = field
  obtain ⟨document, found, rfl⟩ := Option.map_eq_some_iff.mp isRead
  have coherent := ofDocument_coherent document
  have shallow : (ofDocument document).toDocument.toJson.depth ≤ nestingLimit := by
    rw [toDocument_ofDocument]
    exact document.depth_withLevel_le (Document.depth_of_read? found)
  have start : (ofDocument document).Bounded typed 62 (ofDocument document) :=
    coherent.bounded shallow
  have each : ∀ diagnostic ∈ attempts (suite.analyze (ofDocument document) { }).1.diagnostics,
      diagnostic.anchor < (ofDocument document).size
      ∧ (diagnostic.fix = some .splitDeclaration → typed diagnostic.anchor) := by
    intro diagnostic tried
    have attached := suite.attached_of_attempt coherent tried
    have reported := List.mem_of_mem_filter (List.mem_reverse.mp tried)
    exact ⟨coherent.lt_size_of_mem_preorder (coherent.attached_iff.mp attached),
      fun isSplit => ⟨diagnostic, reported, isSplit, rfl⟩⟩
  have bounded : (ofDocument document).Bounded typed 62 after := by
    have result := start.foldl_step each { }
    rwa [← applyAll_eq] at result
  have readable : (∃ again ∈ Tree.read? after.render, again.toDocument = after.toDocument)
      ↔ after.toDocument.toJson.depth ≤ nestingLimit := by
    rw [Tree.read?_render]
    split
    · next fits => exact iff_of_true ⟨_, rfl, toDocument_ofDocument _⟩ fits
    · next deep => exact iff_of_false nofun deep
  rw [readable, nestingLimit, bounded.coherent.depth_toDocument_le_iff]
  constructor
  · intro fits diagnostic _ _ id _ attached _
    exact bounded.coherent.level_le_of_need attached (fits id attached)
  · intro high id attached
    refine (bounded.fits id attached).resolve_right fun overhangs => ?_
    obtain ⟨field, ⟨diagnostic, reported, isSplit, rfl⟩, typeOf⟩ := overhangs.typeOf
    have least := high diagnostic reported isSplit id overhangs.new attached typeOf
    rw [overhangs.deep] at least
    exact absurd least (by decide)

-----------------------------------------------------------------------------------------
-- A field that is too deep
-----------------------------------------------------------------------------------------

/-- The outline inside so many classes, each but the first inside another one. -/
def nestedClasses : Nat → Outline → Outline
  | 0, inner => inner
  | n + 1, inner => (Outline.namedClass "A").withChild (nestedClasses n inner)

/-- A file with a field that has no written type, inside 61 classes. -/
def deepField : Document where
  path := some "Deep.java"
  languageLevel := some 8
  root := Outline.file.withChild <| nestedClasses 61 <|
    ((Outline.ofKind .field).named "f").withType "int"

/-- A suite with the rule for declarations of several variables, asked by someone who waits. -/
def fieldSuite : Suite Rule where
  entries := [{ timed := { inspection := .multipleDeclaration }, enabled := true }]
  interactive := true

/-- The file can be read. Once the field has its type, its text is nested too deeply. -/
theorem deepField_tooDeep
    : Tree.read? deepField.render = some (Tree.ofDocument deepField)
      ∧ Tree.read? (fixTree fieldSuite (Tree.ofDocument deepField)).2.render = none := by
  constructor
  · rw [Tree.read?, Document.read?_render, if_pos (by decide +kernel)]
    rfl
  · rw [Tree.read?_render, if_neg (by decide +kernel)]

/-- The written type of a field is what is too deep. -/
theorem deepField_overhangs
    : let tree := Tree.ofDocument deepField
      let after := (fixTree fieldSuite tree).2
      Tree.read? deepField.render = some tree
      ∧ ∃ diagnostic ∈ (fieldSuite.analyze tree { }).1.diagnostics,
          diagnostic.fix = some .splitDeclaration
          ∧ ∃ id,
              tree.size ≤ id
              ∧ after.Attached id
              ∧ after.TypeOf diagnostic.anchor id
              ∧ 62 < after.level id := by
  obtain ⟨isRead, lost⟩ := deepField_tooDeep
  have unread := (fixTree_readable_iff isRead fieldSuite).not.mp fun ⟨again, found, _⟩ => by
    rw [lost] at found
    cases found
  simp only [not_forall, Nat.not_le] at unread
  obtain ⟨diagnostic, reported, isSplit, id, new, attached, typeOf, deep⟩ := unread
  exact ⟨isRead, diagnostic, reported, isSplit, id, new, attached, typeOf, deep⟩

/-- So a round of fixing may leave a tree that cannot be read from its own text. -/
theorem fixTree_unreadable
    : ¬∀ (text : String) (tree : Tree) (suite : Suite Rule),
        suite.interactive
        → Tree.read? text = some tree
        → ∃ again, Tree.read? (fixTree suite tree).2.render = some again := by
  intro all
  obtain ⟨isRead, lost⟩ := deepField_tooDeep
  obtain ⟨again, found⟩ := all deepField.render (Tree.ofDocument deepField) fieldSuite rfl isRead
  rw [lost] at found
  cases found

end Command

end TreeLint
