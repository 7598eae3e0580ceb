import TreeLint.Fix.Apply
import TreeLint.Proofs.Fix.Atomicity
import TreeLint.Proofs.Fix.Tidying

/-! What the fix for shared declarations does. A variable behind another one moves to a declaration
of its own right behind the old one, and a field gets its written type. Both tidy the tree, and
afterwards the variables that moved stand behind no other one.
-/

namespace TreeLint

namespace Tree

variable {tree : Tree} {spared : NodeId → Prop}

-----------------------------------------------------------------------------------------
-- One variable
-----------------------------------------------------------------------------------------

/-- The tree with a variable moved to a new declaration in a block. -/
def withDeclared (tree : Tree) (statement declared block : NodeId) (index : Nat) : Tree :=
  (((tree.cut statement declared).grow (Outline.ofKind .declarationStatement)).hang
    tree.size 0 declared).hang block index tree.size

/-- The node is a variable of a declaration that hangs in a block. -/
structure DeclaredIn (tree : Tree) (statement declared block : NodeId) : Prop where
  isVariable : tree.kind? declared = some .localVariable
  isDeclaration : tree.kind? statement = some .declarationStatement
  below : tree.parent? declared = some statement
  inBlock : tree.parent? statement = some block

namespace DeclaredIn

variable {statement declared block : NodeId} {index : Nat}

theorem old (declaredIn : tree.DeclaredIn statement declared block) : declared < tree.size :=
  lt_size_of_parent? declaredIn.below

theorem statementOld (declaredIn : tree.DeclaredIn statement declared block)
    : statement < tree.size :=
  lt_size_of_parent? declaredIn.inBlock

theorem apart (declaredIn : tree.DeclaredIn statement declared block) : declared ≠ statement := by
  rintro rfl
  exact absurd (declaredIn.isVariable.symm.trans declaredIn.isDeclaration) (by decide)

theorem blockApart (declaredIn : tree.DeclaredIn statement declared block) (linked : tree.Linked)
    : statement ≠ block := by
  rintro rfl
  exact linked.acyclic statement (.single declaredIn.inBlock)

theorem size : (tree.withDeclared statement declared block index).size = tree.size + 1 := by
  simp only [withDeclared, hang_size, grow_size, cut_size]
  rfl

theorem content?_of_lt {id : NodeId} (old : id < tree.size)
    : (tree.withDeclared statement declared block index).content? id = tree.content? id := by
  rw [withDeclared, hang_content?, hang_content?, grow_content?_of_lt (by rwa [cut_size]),
    cut_content?]

theorem content?_new
    : (tree.withDeclared statement declared block index).content? tree.size
      = some { kind := .declarationStatement } := by
  have new := (tree.cut statement declared).grow_content?_add (Outline.ofKind .declarationStatement)
    0
  rw [cut_size] at new
  rw [withDeclared, hang_content?, hang_content?]
  exact new

theorem guise?_of_lt {id : NodeId} (old : id < tree.size)
    : (tree.withDeclared statement declared block index).guise? id = tree.guise? id := by
  rw [guise?, guise?, content?_of_lt old]

/-- The declared variable has the new declaration as its parent, and nothing else moves. -/
theorem parent? (declaredIn : tree.DeclaredIn statement declared block) {id : NodeId}
    (old : id < tree.size)
    : (tree.withDeclared statement declared block index).parent? id
      = if id = declared then some tree.size else tree.parent? id := by
  have grown : (tree.cut statement declared).size < ((tree.cut statement declared).grow
      (Outline.ofKind .declarationStatement)).size := size_lt_grow _ _
  rw [cut_size] at grown
  rw [withDeclared, hang_parent? (by rwa [hang_size]), if_neg (Nat.ne_of_lt old),
    hang_parent? (Nat.lt_trans declaredIn.old grown), grow_parent?_of_lt (by rwa [cut_size]),
    cut_parent?]
  split <;> rfl

/-- The new declaration hangs in the block. -/
theorem parent?_new
    : (tree.withDeclared statement declared block index).parent? tree.size = some block := by
  have grown : tree.size < ((tree.cut statement declared).grow
      (Outline.ofKind .declarationStatement)).size := by
    rw [grow_size, cut_size]
    exact Nat.lt_succ_self _
  rw [withDeclared, hang_parent? (by rwa [hang_size]), if_pos rfl]

/-- The old declaration loses the variable, and the block gets the new declaration. -/
theorem childIds (declaredIn : tree.DeclaredIn statement declared block) (linked : tree.Linked)
    {id : NodeId} (old : id < tree.size)
    : (tree.withDeclared statement declared block index).childIds id
      = if id = statement then
          (tree.childIds id).filter (· != declared)
        else if id = block then
          (tree.childIds id).insertIdx (min index (tree.childIds id).length) tree.size
        else
          tree.childIds id := by
  have grown : tree.size < ((tree.cut statement declared).grow
      (Outline.ofKind .declarationStatement)).size := by
    rw [grow_size, cut_size]
    exact Nat.lt_succ_self _
  have blockOld := linked.parent_lt declaredIn.inBlock
  rw [withDeclared, hang_childIds (by rw [hang_size]; exact Nat.lt_trans blockOld grown),
    hang_childIds grown, if_neg (Nat.ne_of_lt old), grow_childIds_of_lt (by rwa [cut_size]),
    cut_childIds]
  by_cases isStatement : id = statement
  · simp [isStatement, declaredIn.blockApart linked]
  · simp [isStatement]

theorem childIds_new (declaredIn : tree.DeclaredIn statement declared block)
    (linked : tree.Linked)
    : (tree.withDeclared statement declared block index).childIds tree.size = [declared] := by
  have grown : tree.size < ((tree.cut statement declared).grow
      (Outline.ofKind .declarationStatement)).size := by
    rw [grow_size, cut_size]
    exact Nat.lt_succ_self _
  have blockOld := linked.parent_lt declaredIn.inBlock
  have empty : ((tree.cut statement declared).grow
      (Outline.ofKind .declarationStatement)).childIds tree.size = [] := by
    have new := (tree.cut statement declared).grow_node?_add
      (Outline.ofKind .declarationStatement) 0
    rw [cut_size] at new
    exact (congrArg (fun node => (node.map Node.children).getD []) new)
  rw [withDeclared, hang_childIds (by rw [hang_size]; exact Nat.lt_trans blockOld grown),
    if_neg (Nat.ne_of_gt blockOld), hang_childIds grown, if_pos rfl, empty]
  rfl

/-- Moving a variable to a declaration of its own behind the old one tidies a tree. -/
theorem tidied (declaredIn : tree.DeclaredIn statement declared block) (linked : tree.Linked)
    (behind : 0 < index)
    : tree.Tidied spared (tree.withDeclared statement declared block index) where
  contents id content before :=
    ⟨content, by rwa [content?_of_lt (lt_size_of_content? before)], .refl content⟩
  parents id old := by
    rw [declaredIn.parent? old]
    split
    · next same =>
        subst same
        refine Or.inr ⟨by simp [declaredIn.below], fun upper up => ?_⟩
        exact Nat.le_of_eq (Option.some.inj up)
    · exact Or.inl rfl
  shapes id := by
    by_cases old : id < tree.size
    · have children : (tree.withDeclared statement declared block index).childIds id = _ :=
        declaredIn.childIds linked old
      have guises : ∀ child ∈ tree.childIds id,
          (tree.withDeclared statement declared block index).guise? child = tree.guise? child :=
        fun child member => guise?_of_lt (linked.child_lt member)
      by_cases isStatement : id = statement
      · subst isStatement
        have notKind {kind : NodeKind} (other : kind ≠ .declarationStatement)
            : tree.kind? id ≠ some kind := fun isKind =>
          other (Option.some.inj (isKind.symm.trans declaredIn.isDeclaration))
        exact .of_fewer (by rw [children, if_pos rfl]) guises
          (fun isKind => absurd isKind (notKind (by decide))) (notKind (by decide))
          (fun isKind => absurd isKind (notKind (by decide)))
      · by_cases isBlock : id = block
        · subst isBlock
          refine .of_insert (by rw [children, if_neg isStatement, if_pos rfl])
            (Nat.min_le_right _ _) guises ?_ ?_ fun _ => ?_
          · rw [kind?, content?_new]
            decide
          · rw [content?_new]
            rfl
          · have member := linked.agree.mpr declaredIn.inBlock
            exact Nat.lt_min.mpr ⟨behind, List.length_pos_of_mem member⟩
        · exact .of_children (by rw [children, if_neg isStatement, if_neg isBlock]) guises
    · exact .of_new (Nat.le_of_not_lt old)
  newContents id content new known := by
    obtain rfl := eq_size_of_new size new (lt_size_of_content? known)
    rw [content?_new] at known
    cases known
    decide
  newDeclarations id new isKind := by
    obtain rfl := eq_size_of_new size new (lt_size_of_kind? isKind)
    refine List.drop_eq_nil_of_le (Nat.le_trans (List.length_filter_le _ _) ?_)
    rw [declaredIn.childIds_new linked]
    exact Nat.le_refl 1

/-- Nothing but the variable moves. -/
theorem frame (declaredIn : tree.DeclaredIn statement declared block)
    : tree.Frame [declared] (tree.withDeclared statement declared block index) where
  root := by rw [withDeclared, hang_root, hang_root, grow_root, cut_root]
  writable := by rw [withDeclared, hang_writable, hang_writable, grow_writable, cut_writable]
  grows := by
    rw [size]
    exact Nat.le_succ _
  parents id old still := by
    rw [declaredIn.parent? old, if_neg (by simpa using still)]

/-- The variable stands behind no other one in its new declaration. -/
theorem standsAlone (declaredIn : tree.DeclaredIn statement declared block)
    (linked : tree.Linked) (linkedThen : (tree.withDeclared statement declared block index).Linked)
    (declaration : NodeId)
    : ¬(tree.withDeclared statement declared block index).StandsBehind declaration declared := by
  intro behind
  have up := behind.below linkedThen
  rw [declaredIn.parent? declaredIn.old, if_pos rfl] at up
  cases up
  obtain ⟨_, _, before, after, split, first, among, _⟩ := behind
  rw [declaredIn.childIds_new linked] at split
  cases before with
  | nil => cases among
  | cons head rest => simp at split

/-- A sibling of the variable is in the same declaration after the variable has moved. -/
theorem rest (declaredIn : tree.DeclaredIn statement declared block) {other : NodeId}
    (otherIn : tree.DeclaredIn statement other block) (distinct : other ≠ declared)
    : (tree.withDeclared statement declared block index).DeclaredIn statement other block where
  isVariable := by
    rw [kind?_of_guise? (guise?_of_lt otherIn.old), otherIn.isVariable]
  isDeclaration := by
    rw [kind?_of_guise? (guise?_of_lt declaredIn.statementOld), declaredIn.isDeclaration]
  below := by rw [declaredIn.parent? otherIn.old, if_neg distinct, otherIn.below]
  inBlock := by
    rw [declaredIn.parent? declaredIn.statementOld, if_neg declaredIn.apart.symm,
      declaredIn.inBlock]

end DeclaredIn

-----------------------------------------------------------------------------------------
-- Several variables
-----------------------------------------------------------------------------------------

/-- The node is a variable of the declaration. -/
def DeclaresTogether (tree : Tree) (statement id : NodeId) : Prop :=
  tree.kind? statement = some .declarationStatement
  ∧ tree.kind? id = some .localVariable
  ∧ tree.parent? id = some statement

/-- The second tree is the first with some variables moved to declarations of their own. -/
structure Apart (tree : Tree) (moved : List NodeId) (after : Tree) : Prop where
  coherent : after.Coherent
  frame : tree.Frame moved after
  contents : ∀ id < tree.size, after.content? id = tree.content? id
  tidied : tree.Tidied (fun _ => False) after
  alone : ∀ id ∈ moved, ∀ declaration, ¬after.StandsBehind declaration id

end Tree

namespace Fix

open TreeLint.Tree

/-- One more variable is moved, and then the rest. -/
theorem declareApart_step {tree after : Tree} (coherent : tree.Coherent)
    {statement declared block : NodeId} {rest : List NodeId} {index : Nat}
    (declaredIn : tree.DeclaredIn statement declared block)
    (succeeded : (declareApart block index (declared :: rest)).apply tree = (.ok (), after))
    : (tree.withDeclared statement declared block index).Coherent
      ∧ (declareApart block (index + 1) rest).apply
            (tree.withDeclared statement declared block index)
          = (.ok (), after) := by
  obtain ⟨_, cut, cuts, more⟩ := Edit.bind_succeeded succeeded
  obtain ⟨parent, up, rfl⟩ := Edit.detach_succeeded cuts
  cases up.symm.trans declaredIn.below
  obtain ⟨declaration, grown, grows, more⟩ := Edit.bind_succeeded more
  obtain ⟨rfl, rfl⟩ := Edit.addOutline_succeeded grows
  have grownCoherent := (coherent.cut up).grow (Outline.ofKind .declarationStatement)
  obtain ⟨_, filled, fills, more⟩ := Edit.bind_succeeded more
  obtain ⟨inner, rfl⟩ := Edit.insertChild_succeeded grownCoherent.toLinked fills
  have filledCoherent := grownCoherent.hang inner 0
  obtain ⟨_, hung, hangs, more⟩ := Edit.bind_succeeded more
  obtain ⟨outer, rfl⟩ := Edit.insertChild_succeeded filledCoherent.toLinked hangs
  have result := filledCoherent.hang outer index
  rw [cut_size] at result more
  exact ⟨result, more⟩

/-- Variables of one declaration are moved one after the other, by induction on the list. -/
theorem declareApart_succeeded {tree after : Tree} (coherent : tree.Coherent)
    {statement block : NodeId} {ids : List NodeId} {index : Nat}
    (each : ∀ id ∈ ids, tree.DeclaredIn statement id block) (distinct : ids.Nodup)
    (behind : 0 < index)
    (succeeded : (declareApart block index ids).apply tree = (.ok (), after))
    : tree.Apart ids after := by
  induction ids generalizing tree index with
  | nil =>
      obtain rfl : tree = after := congrArg Prod.snd succeeded
      exact ⟨coherent, .refl tree [], fun _ _ => rfl, .refl tree _, by simp⟩
  | cons id rest ih =>
      have declaredIn := each id List.mem_cons_self
      obtain ⟨fresh, restDistinct⟩ := List.nodup_cons.mp distinct
      obtain ⟨middleCoherent, more⟩ := declareApart_step coherent declaredIn succeeded
      have others : ∀ other ∈ rest,
          (tree.withDeclared statement id block index).DeclaredIn statement other block :=
        fun other member => declaredIn.rest (each other (List.mem_cons_of_mem id member))
          fun same => fresh (same ▸ member)
      have later := ih middleCoherent others restDistinct (Nat.succ_pos index) more
      refine ⟨later.coherent, ?_, ?_, ?_, ?_⟩
      · exact declaredIn.frame.trans later.frame (by simp)
          (fun _ _ member => List.mem_cons_of_mem id member)
      · intro other old
        rw [later.contents other (Nat.lt_of_lt_of_le old declaredIn.frame.grows),
          DeclaredIn.content?_of_lt old]
      · exact (declaredIn.tidied coherent.toLinked behind).trans later.tidied
      · intro other member declaration stands
        rcases List.mem_cons.mp member with rfl | member
        · exact declaredIn.standsAlone coherent.toLinked middleCoherent.toLinked declaration
            (later.tidied.standsBehind_before stands)
        · exact later.alone other member declaration stands

/-- Each of the variables that are moved hangs in a new declaration of the block, by induction on the
list.
-/
theorem declareApart_declared {tree after : Tree} (coherent : tree.Coherent)
    {statement block : NodeId} {ids : List NodeId} {index : Nat}
    (each : ∀ id ∈ ids, tree.DeclaredIn statement id block) (distinct : ids.Nodup)
    (succeeded : (declareApart block (index + 1) ids).apply tree = (.ok (), after))
    : ∀ id ∈ ids, ∃ declaration, tree.size ≤ declaration ∧ after.DeclaredIn declaration id block := by
  induction ids generalizing tree index with
  | nil => exact fun _ member => nomatch member
  | cons declared rest ih =>
      have declaredIn := each declared List.mem_cons_self
      obtain ⟨fresh, restDistinct⟩ := List.nodup_cons.mp distinct
      obtain ⟨middleCoherent, more⟩ := declareApart_step coherent declaredIn succeeded
      have others : ∀ other ∈ rest,
          (tree.withDeclared statement declared block (index + 1)).DeclaredIn statement other
            block :=
        fun other member => declaredIn.rest (each other (List.mem_cons_of_mem declared member))
          fun same => fresh (same ▸ member)
      intro id member
      rcases List.mem_cons.mp member with rfl | later
      · -- The others that move are old and not this one, so its way to the block stays.
        have apart := declareApart_succeeded middleCoherent others restDistinct (Nat.succ_pos _) more
        have new : tree.size ∉ rest := fun inside =>
          Nat.lt_irrefl _ (each tree.size (List.mem_cons_of_mem id inside)).old
        have inside : tree.size < (tree.withDeclared statement id block (index + 1)).size := by
          rw [DeclaredIn.size]
          exact Nat.lt_succ_self _
        have old : id < (tree.withDeclared statement id block (index + 1)).size :=
          Nat.lt_of_lt_of_le declaredIn.old declaredIn.frame.grows
        refine ⟨tree.size, Nat.le_refl _, ?_, ?_, ?_, ?_⟩
        · rw [kind?, apart.contents id old, DeclaredIn.content?_of_lt declaredIn.old]
          exact declaredIn.isVariable
        · rw [kind?, apart.contents _ inside, DeclaredIn.content?_new]
          rfl
        · rw [apart.frame.parents id old fresh, declaredIn.parent? declaredIn.old, if_pos rfl]
        · rw [apart.frame.parents _ inside new, DeclaredIn.parent?_new]
      · obtain ⟨declaration, behind, placed⟩ :=
          ih middleCoherent others restDistinct more id later
        exact ⟨declaration, Nat.le_trans declaredIn.frame.grows behind, placed⟩

end Fix

namespace Tree

-----------------------------------------------------------------------------------------
-- Fields
-----------------------------------------------------------------------------------------

/-- The tree with a written type for a field. -/
def withType (tree : Tree) (field : NodeId) (typeName : String) : Tree :=
  (tree.grow (Outline.typeElement typeName)).hang field 0 tree.size

section WrittenType

variable {tree : Tree} {field : NodeId} {typeName : String}

theorem withType_size : (tree.withType field typeName).size = tree.size + 1 := by
  rw [withType, hang_size, grow_size]
  rfl

theorem withType_content?_of_lt {id : NodeId} (old : id < tree.size)
    : (tree.withType field typeName).content? id = tree.content? id := by
  rw [withType, hang_content?, grow_content?_of_lt old]

theorem withType_content?_new
    : (tree.withType field typeName).content? tree.size
      = some (Outline.typeElement typeName).content := by
  rw [withType, hang_content?]
  exact tree.grow_content?_add (Outline.typeElement typeName) 0

theorem withType_childIds {id : NodeId} (fieldOld : field < tree.size) (old : id < tree.size)
    : (tree.withType field typeName).childIds id
      = if id = field then (tree.childIds id).insertIdx 0 tree.size else tree.childIds id := by
  have grown := tree.size_lt_grow (Outline.typeElement typeName)
  rw [withType, hang_childIds (Nat.lt_trans fieldOld grown), grow_childIds_of_lt old, Nat.zero_min]

theorem withType_frame : tree.Frame [] (tree.withType field typeName) where
  root := by rw [withType, hang_root, grow_root]
  writable := by rw [withType, hang_writable, grow_writable]
  grows := by
    rw [withType_size]
    exact Nat.le_succ _
  parents id old _ := by
    rw [withType, hang_parent? (tree.size_lt_grow _), if_neg (Nat.ne_of_lt old),
      grow_parent?_of_lt old]

/-- A type for a field that has none tidies a tree. -/
theorem tidied_withType {spared : NodeId → Prop} (linked : tree.Linked)
    (isField : tree.kind? field = some .field)
    : tree.Tidied spared (tree.withType field typeName) where
  contents id content before :=
    ⟨content, by rwa [withType_content?_of_lt (lt_size_of_content? before)], .refl content⟩
  parents id old := Or.inl (withType_frame.parents id old List.not_mem_nil)
  shapes id := by
    by_cases old : id < tree.size
    · have fieldOld := lt_size_of_kind? isField
      have guises : ∀ child ∈ tree.childIds id,
          (tree.withType field typeName).guise? child = tree.guise? child := by
        intro child member
        rw [guise?, guise?, withType_content?_of_lt (linked.child_lt member)]
      by_cases here : id = field
      · subst here
        refine .of_insert (by rw [withType_childIds fieldOld old, if_pos rfl]) (Nat.zero_le _)
          guises ?_ ?_ fun around => ?_
        · rw [kind?, withType_content?_new]
          exact fun isVariable => NodeKind.noConfusion (Option.some.inj isVariable)
        · rw [withType_content?_new]
          rfl
        · exact absurd (isField.symm.trans around) (by decide)
      · exact .of_children (by rw [withType_childIds fieldOld old, if_neg here]) guises
    · exact .of_new (Nat.le_of_not_lt old)
  newContents id content new known := by
    obtain rfl := eq_size_of_new withType_size new (lt_size_of_content? known)
    rw [withType_content?_new] at known
    cases known
    have added : NodeKind.typeElement ∈ addedKinds ∧ Role.other ≠ .extended := by decide
    exact ⟨added.1, rfl, added.2⟩
  newDeclarations id new isKind := by
    obtain rfl := eq_size_of_new withType_size new (lt_size_of_kind? isKind)
    rw [kind?, withType_content?_new] at isKind
    cases isKind

/-- A field with a written type is not bare. -/
theorem withType_notBare (fieldOld : field < tree.size)
    : ¬(tree.withType field typeName).BareField field := by
  intro bare
  refine bare.2 tree.size ?_ (by rw [kind?, withType_content?_new]; rfl)
  rw [withType_childIds fieldOld fieldOld, if_pos rfl]
  exact List.mem_cons_self

end WrittenType

end Tree

namespace Fix

open TreeLint.Tree

-----------------------------------------------------------------------------------------
-- What the fix does
-----------------------------------------------------------------------------------------

/-- The fix moves the variables behind the first of a declaration in a block. -/
theorem splitStatement_moves {tree after : Tree} (coherent : tree.Coherent)
    {anchor : NodeId}
    (succeeded : (splitStatement anchor).apply tree = (.ok (), after))
    : ∃ statement block index,
        tree.parent? anchor = some statement
        ∧ tree.kind? statement = some .declarationStatement
        ∧ (∀ id ∈ (tree.variablesOf statement).drop 1, tree.DeclaredIn statement id block)
        ∧ ((tree.variablesOf statement).drop 1).Nodup
        ∧ (declareApart block (index + 1) ((tree.variablesOf statement).drop 1)).apply tree
          = (.ok (), after) := by
  have looked := Edit.current_succeeded succeeded
  obtain ⟨statement, found, more⟩ := Edit.require_succeeded looked
  obtain ⟨block, inBlock, more⟩ := Edit.require_succeeded more
  obtain ⟨there, declares⟩ := Option.filter_eq_some_iff.mp found
  obtain ⟨number, up, numberShown⟩ := Option.bind_eq_some_iff.mp there
  obtain rfl := subtree?_id numberShown
  have isDeclaration : tree.kind? statement.id = some .declarationStatement := by
    rw [kind?_of_shown numberShown, eq_of_beq declares]
  refine ⟨statement.id, block, (tree.indexInParent? statement.id).getD 0, up, isDeclaration,
    fun id member => ?_, ?_, ?_⟩
  · obtain ⟨child, isVariable⟩ := List.mem_filter.mp (List.mem_of_mem_drop member)
    exact ⟨eq_of_beq isVariable, isDeclaration, coherent.agree.mp child, inBlock⟩
  · exact ((coherent.unique statement.id).filter _).sublist (List.drop_sublist 1 _)
  · rw [← childrenOfKind_localVariable numberShown, ← List.map_drop]
    exact more

/-- The variables behind the first of a declaration are moved. -/
theorem splitStatement_succeeded {tree after : Tree} (coherent : tree.Coherent)
    {anchor : NodeId}
    (succeeded : (splitStatement anchor).apply tree = (.ok (), after))
    : ∃ statement,
        tree.parent? anchor = some statement
        ∧ tree.kind? statement = some .declarationStatement
        ∧ tree.Apart ((tree.variablesOf statement).drop 1) after := by
  obtain ⟨statement, _, _, up, isDeclaration, each, distinct, moves⟩ :=
    splitStatement_moves coherent succeeded
  exact ⟨statement, up, isDeclaration,
    declareApart_succeeded coherent each distinct (Nat.succ_pos _) moves⟩

/-- A field gets its type if it has none written, and else nothing happens. -/
theorem writeFieldType_cases {tree after : Tree} (coherent : tree.Coherent) {field : Subtree}
    (succeeded : (writeFieldType field).apply tree = (.ok (), after))
    : (∃ typeName, after = tree.withType field.id typeName)
      ∨ after = tree ∧ ¬(field.childrenOfKind .typeElement).isEmpty := by
  rw [writeFieldType] at succeeded
  split at succeeded
  · obtain ⟨typeName, _, more⟩ := Edit.require_succeeded succeeded
    exact .inl ⟨typeName, (Edit.hangNew_succeeded coherent more).1⟩
  · next hasType => exact .inr ⟨(congrArg Prod.snd succeeded).symm, hasType⟩

/-- A field without a type gets one, if it is known, and the tree is left alone otherwise. -/
theorem writeFieldType_succeeded {tree after : Tree} (coherent : tree.Coherent) {field : Subtree}
    (shown : tree.subtree? field.id = some field) (isField : field.kind = .field)
    (succeeded : (writeFieldType field).apply tree = (.ok (), after))
    : tree.Apart [] after ∧ ¬after.BareField field.id := by
  have kind : tree.kind? field.id = some .field :=
    (kind?_of_shown shown).trans (congrArg some isField)
  have afterCoherent := writeFieldType_keepsCoherent field tree coherent
  rw [succeeded] at afterCoherent
  rcases writeFieldType_cases coherent succeeded with ⟨typeName, rfl⟩ | ⟨rfl, hasType⟩
  · refine ⟨⟨afterCoherent, withType_frame, fun _ => withType_content?_of_lt,
      tidied_withType coherent.toLinked kind, by simp⟩, ?_⟩
    exact withType_notBare (lt_size_of_kind? kind)
  · refine ⟨⟨coherent, .refl after [], fun _ _ => rfl, .refl after _, by simp⟩, fun bare => ?_⟩
    exact hasType ((bareField_iff shown).mp bare).2

/-- The fix splits the statement of a variable, or writes the type of a field. -/
theorem splitDeclaration_cases {tree after : Tree} {anchor : NodeId}
    (succeeded : (splitDeclaration.applyAt anchor).apply tree = (.ok (), after))
    : ∃ node,
        tree.subtree? anchor = some node
        ∧ (node.kind = .localVariable ∧ (splitStatement anchor).apply tree = (.ok (), after)
          ∨ node.kind = .field ∧ (writeFieldType node).apply tree = (.ok (), after)) := by
  obtain ⟨_, _, rest⟩ := Edit.ensureNode_succeeded succeeded
  have looked := Edit.current_succeeded rest
  cases shown : tree.subtree? anchor with
  | none =>
      rw [shown] at looked
      exact absurd looked Edit.failed_ne_succeeded
  | some node =>
      rw [shown] at looked
      refine ⟨node, rfl, ?_⟩
      simp only at looked
      split at looked
      · next isVariable => exact .inl ⟨isVariable, looked⟩
      · next isField => exact .inr ⟨isField, looked⟩
      · exact absurd looked Edit.failed_ne_succeeded

/-- The fix moves siblings of the anchor, or none, and leaves the anchor without its problem. -/
theorem splitDeclaration_succeeded {tree after : Tree} (coherent : tree.Coherent)
    {anchor : NodeId}
    (succeeded : (splitDeclaration.applyAt anchor).apply tree = (.ok (), after))
    : ∃ moved,
        tree.Apart moved after
        ∧ (∀ id ∈ moved, ∃ statement,
            tree.DeclaresTogether statement id ∧ tree.DeclaresTogether statement anchor)
        ∧ (∀ declaration, ¬after.StandsBehind declaration anchor)
        ∧ ¬after.BareField anchor := by
  obtain ⟨node, shown, ⟨isVariable, splits⟩ | ⟨isField, writes⟩⟩ := splitDeclaration_cases succeeded
  · obtain rfl := subtree?_id shown
    obtain ⟨statement, up, isDeclaration, apart⟩ := splitStatement_succeeded coherent splits
    have isKind := (kind?_of_shown shown).trans (congrArg some isVariable)
    refine ⟨_, apart, fun id member => ⟨statement, ?_, isDeclaration, isKind, up⟩, ?_, ?_⟩
    · obtain ⟨child, declared⟩ := List.mem_filter.mp (List.mem_of_mem_drop member)
      exact ⟨isDeclaration, eq_of_beq declared, coherent.agree.mp child⟩
    · -- What is behind another variable now was so before, and then it has moved.
      intro declaration behind
      have before := apart.tidied.standsBehind_before behind
      cases up.symm.trans (before.below coherent.toLinked)
      exact apart.alone node.id (standsBehind_iff.mp before).2 _ behind
    · exact fun bare => absurd
        ((apart.tidied.bareField_before bare).1.symm.trans isKind) (by decide)
  · obtain rfl := subtree?_id shown
    obtain ⟨apart, typed⟩ := writeFieldType_succeeded coherent shown isField writes
    have isKind := (kind?_of_shown shown).trans (congrArg some isField)
    refine ⟨[], apart, by simp, fun declaration behind => ?_, typed⟩
    exact absurd ((apart.tidied.standsBehind_before behind).2.1.symm.trans isKind) (by decide)

end Fix

end TreeLint
