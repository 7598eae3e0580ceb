import TreeLint.Proofs.Fix.Hoisting

/-! Where the variables of a declaration come to stand when they get declarations of their own. The
first one stays with everything else in the old declaration, and each of the others goes into a new
one. The new declarations stand in a row behind the old one, in the order of the variables. Main
result: the fix always succeeds, this is all that it does, and there is nothing left to split.
-/

namespace TreeLint

open Relation

namespace Tree

/-- The second tree is the first with some variables of a declaration in a block moved to new
declarations, one for each of them, from a place in the block on.
-/
structure Split (tree : Tree) (statement block : NodeId) (index : Nat) (moved : List NodeId)
    (after : Tree) : Prop where
  sameFile : tree.SameFile after
  root : after.root = tree.root
  size : after.size = tree.size + moved.length
  contents : ∀ id < tree.size, after.content? id = tree.content? id
  parents : ∀ id < tree.size, id ∉ moved → after.parent? id = tree.parent? id
  siblings : ∀ id < tree.size, id ≠ statement → id ≠ block → after.childIds id = tree.childIds id
  inStatement : after.childIds statement = (tree.childIds statement).filter (· ∉ moved)
  /-- The new declarations come in a row, and the children of the block keep their order. -/
  inBlock
    : after.childIds block
      = (tree.childIds block).take index
        ++ (List.range' tree.size moved.length ++ (tree.childIds block).drop index)
  /-- Each new declaration declares the variable of its place, and nothing else is in it. -/
  declarations
    : ∀ place id, moved[place]? = some id →
        after.content? (tree.size + place) = some { kind := .declarationStatement }
        ∧ after.parent? (tree.size + place) = some block
        ∧ after.childIds (tree.size + place) = [id]

variable {tree after : Tree} {statement block declared : NodeId} {index : Nat}
  {moved : List NodeId}

-----------------------------------------------------------------------------------------
-- One variable after the other
-----------------------------------------------------------------------------------------

theorem withDeclared_sameFile
    : tree.SameFile (tree.withDeclared statement declared block index) := by
  constructor <;> simp only [withDeclared, hang, grow, cut, relink, rearrange, updateNode]

theorem Split.refl : tree.Split statement block index [] tree where
  sameFile := ⟨rfl, rfl, rfl, rfl⟩
  root := rfl
  size := rfl
  contents _ _ := rfl
  parents _ _ _ := rfl
  siblings _ _ _ _ := rfl
  inStatement := by simp
  inBlock := by simp
  declarations _ _ found := by simp at found

/-- Behind one variable that is moved, the next ones are moved to the places behind it. -/
theorem DeclaredIn.split (declaredIn : tree.DeclaredIn statement declared block)
    (linked : tree.Linked) (inside : index ≤ (tree.childIds block).length)
    (each : ∀ id ∈ moved, id < tree.size)
    (rest : (tree.withDeclared statement declared block index).Split statement block (index + 1)
      moved after)
    : tree.Split statement block index (declared :: moved) after := by
  have statementOld := declaredIn.statementOld
  have blockOld := linked.parent_lt declaredIn.inBlock
  have grows {id : NodeId} (old : id < tree.size)
      : id < (tree.withDeclared statement declared block index).size := by
    rw [DeclaredIn.size]
    exact Nat.lt_succ_of_lt old
  have newInside
      : tree.size < (tree.withDeclared statement declared block index).size := by
    rw [DeclaredIn.size]
    exact Nat.lt_succ_self _
  constructor
  · exact withDeclared_sameFile.trans rest.sameFile
  · rw [rest.root]
    exact declaredIn.frame.root
  · rw [rest.size, DeclaredIn.size, List.length_cons]
    omega
  · intro id old
    rw [rest.contents id (grows old), DeclaredIn.content?_of_lt old]
  · intro id old still
    obtain ⟨notDeclared, notMoved⟩ := not_or.mp (mt List.mem_cons.mpr still)
    rw [rest.parents id (grows old) notMoved, declaredIn.parent? old, if_neg notDeclared]
  · intro id old notStatement notBlock
    rw [rest.siblings id (grows old) notStatement notBlock, declaredIn.childIds linked old,
      if_neg notStatement, if_neg notBlock]
  · rw [rest.inStatement, declaredIn.childIds linked statementOld, if_pos rfl, List.filter_filter]
    refine List.filter_congr fun id _ => Bool.eq_iff_iff.mpr ?_
    simp [and_comm]
  · -- The new declaration is the last of the children of the block in front of the next place.
    have middle : (tree.withDeclared statement declared block index).childIds block
        = (tree.childIds block).take index ++ [tree.size] ++ (tree.childIds block).drop index := by
      rw [declaredIn.childIds linked blockOld, if_neg (declaredIn.blockApart linked).symm,
        if_pos rfl, Nat.min_eq_left inside, insertIdx_eq_append inside, List.append_assoc]
      rfl
    have length : ((tree.childIds block).take index ++ [tree.size]).length = index + 1 := by
      rw [List.length_append, List.length_take_of_le inside]
      rfl
    rw [rest.inBlock, middle, List.take_left' length, List.drop_left' length, DeclaredIn.size,
      List.length_cons, List.range'_succ, List.append_assoc]
    rfl
  · intro place id found
    cases place with
    | zero =>
        cases found
        have notMoved : tree.size ∉ moved := fun member => Nat.lt_irrefl _ (each _ member)
        refine ⟨?_, ?_, ?_⟩
        · exact (rest.contents _ newInside).trans DeclaredIn.content?_new
        · exact (rest.parents _ newInside notMoved).trans DeclaredIn.parent?_new
        · exact (rest.siblings _ newInside (Nat.ne_of_gt statementOld)
            (Nat.ne_of_gt blockOld)).trans (declaredIn.childIds_new linked)
    | succ place =>
        have later := rest.declarations place id found
        rwa [DeclaredIn.size, Nat.add_right_comm, Nat.add_assoc] at later

end Tree

namespace Fix

open TreeLint.Tree

variable {tree after : Tree} {statement block declared : NodeId}

/-- Variables of one declaration are moved to a row of places, by induction on the list. -/
theorem declareApart_splits (coherent : tree.Coherent) {ids : List NodeId} {index : Nat}
    (each : ∀ id ∈ ids, tree.DeclaredIn statement id block) (distinct : ids.Nodup)
    (inside : index ≤ (tree.childIds block).length)
    (succeeded : (declareApart block index ids).apply tree = (.ok (), after))
    : tree.Split statement block index ids after := by
  induction ids generalizing tree index with
  | nil =>
      obtain rfl : tree = after := congrArg Prod.snd succeeded
      exact .refl
  | cons declared rest ih =>
      have declaredIn := each declared List.mem_cons_self
      have linked := coherent.toLinked
      have eachRest : ∀ id ∈ rest, tree.DeclaredIn statement id block :=
        fun id member => each id (List.mem_cons_of_mem declared member)
      obtain ⟨fresh, restDistinct⟩ := List.nodup_cons.mp distinct
      obtain ⟨middleCoherent, more⟩ := declareApart_step coherent declaredIn succeeded
      have longer : index + 1
          ≤ ((tree.withDeclared statement declared block index).childIds block).length := by
        rw [declaredIn.childIds linked (linked.parent_lt declaredIn.inBlock),
          if_neg (declaredIn.blockApart linked).symm, if_pos rfl, Nat.min_eq_left inside,
          List.length_insertIdx_of_le_length inside]
        exact Nat.succ_le_succ inside
      refine declaredIn.split linked inside (fun id member => (eachRest id member).old) ?_
      exact ih middleCoherent
        (fun id member => declaredIn.rest (eachRest id member) fun same => fresh (same ▸ member))
        restDistinct longer more

/-- The fix for a variable of a declaration in a block moves the variables behind the first. -/
theorem splitDeclaration_apply (linked : tree.Linked) (writable : tree.writable)
    (declaredIn : tree.DeclaredIn statement declared block)
    : (splitDeclaration.applyAt declared).apply tree
      = (declareApart block ((tree.indexInParent? statement).getD 0 + 1)
          ((tree.variablesOf statement).drop 1)).apply tree := by
  obtain ⟨node, shown⟩ := linked.subtree?_exists declaredIn.old
  obtain rfl := subtree?_id shown
  have isVariable : node.kind = .localVariable := kind_of_shown shown declaredIn.isVariable
  change (splitDeclarationAt node.id).apply tree = _
  rw [splitDeclarationAt, Edit.ensureNode_bind writable declaredIn.old, Edit.current_bind, shown]
  simp only [isVariable]
  exact splitStatement_apply linked declaredIn.below declaredIn.isDeclaration declaredIn.inBlock

end Fix

namespace Tree

variable {tree after : Tree} {statement block declared : NodeId} {index : Nat}
  {moved : List NodeId}

-----------------------------------------------------------------------------------------
-- What is left of the tree
-----------------------------------------------------------------------------------------

/-- The variables of a declaration are in the block of it. -/
theorem DeclaredIn.of_variable (declaredIn : tree.DeclaredIn statement declared block)
    (linked : tree.Linked) {id : NodeId} (member : id ∈ tree.variablesOf statement)
    : tree.DeclaredIn statement id block := by
  obtain ⟨child, isVariable⟩ := List.mem_filter.mp member
  exact ⟨eq_of_beq isVariable, declaredIn.isDeclaration, linked.agree.mp child, declaredIn.inBlock⟩

/-- Of a list without repetition, the first item is what is not behind it. -/
theorem filter_not_mem_tail {items : List NodeId} (distinct : items.Nodup)
    : items.filter (· ∉ items.drop 1) = items.take 1 := by
  cases items with
  | nil => rfl
  | cons first rest =>
      have fresh : first ∉ rest := (List.nodup_cons.mp distinct).1
      have none : rest.filter (· ∉ rest) = [] :=
        List.filter_eq_nil_iff.mpr fun id member => by simpa using member
      rw [List.drop_one, List.tail_cons, List.filter_cons_of_pos (by simpa using fresh), none]
      rfl

namespace Split

/-- A subtree that the declaration is not in stays as it is. -/
theorem subtree? (split : tree.Split statement block index moved after) (linked : tree.Linked)
    (afterLinked : after.Linked) (inBlock : tree.parent? statement = some block) {id : NodeId}
    (old : id < tree.size) (outside : ¬ReflTransGen tree.IsParent id statement)
    : after.subtree? id = tree.subtree? id := by
  obtain ⟨found, shown⟩ := linked.subtree?_exists old
  obtain rfl := subtree?_id shown
  rw [shown]
  refine linked.subtree?_of_same afterLinked shown fun inner way => ?_
  have innerOld : inner < tree.size := by
    rcases ReflTransGen.cases_tail way with rfl | ⟨_, _, last⟩
    · exact old
    · exact lt_size_of_parent? last
  refine ⟨split.contents inner innerOld, split.siblings inner innerOld ?_ ?_⟩
  · rintro rfl
    exact outside way
  · rintro rfl
    exact outside (way.tail inBlock)

/-- Each child of the declaration is moved or left with all that is below it. -/
theorem child (split : tree.Split statement block index moved after) (linked : tree.Linked)
    (afterLinked : after.Linked) (inBlock : tree.parent? statement = some block) {id : NodeId}
    (member : id ∈ tree.childIds statement)
    : after.subtree? id = tree.subtree? id := by
  have up : tree.IsParent statement id := linked.agree.mp member
  refine split.subtree? linked afterLinked inBlock (linked.child_lt member) fun way => ?_
  exact linked.acyclic statement (.head' up way)

theorem kind? (split : tree.Split statement block index moved after) {id : NodeId}
    (old : id < tree.size)
    : after.kind? id = tree.kind? id := by
  rw [Tree.kind?, Tree.kind?, split.contents id old]

/-- The declaration keeps the variables that are not moved. -/
theorem variablesOf (split : tree.Split statement block index moved after) (linked : tree.Linked)
    : after.variablesOf statement = (tree.variablesOf statement).filter (· ∉ moved) := by
  rw [Tree.variablesOf, Tree.variablesOf, split.inStatement, List.filter_filter,
    List.filter_filter]
  refine List.filter_congr fun id member => ?_
  rw [split.kind? (linked.child_lt member), Bool.and_comm]

/-- A variable that is moved is the only one of a declaration in the block. -/
theorem declaredIn (split : tree.Split statement block index moved after)
    (afterLinked : after.Linked) {id : NodeId} (member : id ∈ moved) (old : id < tree.size)
    (isVariable : tree.kind? id = some .localVariable)
    : ∃ declaration,
        after.DeclaredIn declaration id block ∧ after.variablesOf declaration = [id] := by
  obtain ⟨place, isPlace⟩ := List.mem_iff_getElem?.mp member
  obtain ⟨content, up, children⟩ := split.declarations place id isPlace
  have isStill : after.kind? id = some .localVariable := (split.kind? old).trans isVariable
  have among : id ∈ after.childIds (tree.size + place) := by
    rw [children]
    exact List.mem_cons_self
  refine ⟨tree.size + place, ⟨isStill, ?_, afterLinked.agree.mp among, up⟩, ?_⟩
  · rw [Tree.kind?, content]
    rfl
  · rw [Tree.variablesOf, children, List.filter_singleton, isStill]
    rfl

/-- A variable that is not moved is in the declaration still. -/
theorem declaredIn_still (split : tree.Split statement block index moved after)
    (declaredIn : tree.DeclaredIn statement declared block) (notMoved : declared ∉ moved)
    (still : statement ∉ moved)
    : after.DeclaredIn statement declared block where
  isVariable := (split.kind? declaredIn.old).trans declaredIn.isVariable
  isDeclaration := (split.kind? declaredIn.statementOld).trans declaredIn.isDeclaration
  below := (split.parents declared declaredIn.old notMoved).trans declaredIn.below
  inBlock := (split.parents statement declaredIn.statementOld still).trans declaredIn.inBlock

end Split

end Tree

namespace Fix

open TreeLint.Tree

/-- The fix for a variable of a declaration in a block succeeds. The variables behind the first move
with all that is below them, each of them to a declaration of its own, and these stand in the order
of the variables right behind the old one. Nothing else changes, and for no variable of the old
declaration has the fix more to do then.
-/
theorem splitDeclaration_splits {tree : Tree} (reachable : tree.Reachable)
    (writable : tree.writable) {statement declared block : NodeId}
    (declaredIn : tree.DeclaredIn statement declared block)
    : ∃ after before behind first,
        (splitDeclaration.applyAt declared).apply tree = (.ok (), after)
        ∧ tree.Split statement block (before.length + 1) ((tree.variablesOf statement).drop 1) after
        ∧ tree.childIds block = before ++ statement :: behind
        ∧ after.childIds block
          = before ++ statement
            :: (List.range' tree.size ((tree.variablesOf statement).drop 1).length ++ behind)
        ∧ (tree.variablesOf statement).head? = some first
        ∧ after.variablesOf statement = [first]
        ∧ (∀ child ∈ tree.childIds statement, after.subtree? child = tree.subtree? child)
        ∧ ∀ id ∈ tree.variablesOf statement,
            (splitDeclaration.applyAt id).apply after = (.ok (), after) := by
  have coherent := reachable.coherent
  have linked := coherent.toLinked
  have all (id : NodeId) (member : id ∈ tree.variablesOf statement) :=
    declaredIn.of_variable linked member
  have distinct : (tree.variablesOf statement).Nodup := (coherent.unique statement).filter _
  have laterDistinct := distinct.sublist (List.drop_sublist 1 _)
  have eachLater (id : NodeId) (member : id ∈ (tree.variablesOf statement).drop 1) :=
    all id (List.mem_of_mem_drop member)
  obtain ⟨before, behind, around, place⟩ :=
    children_around (linked.agree.mpr declaredIn.inBlock) declaredIn.inBlock
  obtain ⟨_, after, moves⟩ := declareApart_succeeds coherent writable declaredIn.inBlock
    ⟨laterDistinct, fun id member => (eachLater id member).below⟩ (before.length + 1)
  have length : (before ++ [statement]).length = before.length + 1 := List.length_append
  have split : tree.Split statement block (before.length + 1) ((tree.variablesOf statement).drop 1)
      after := by
    refine declareApart_splits coherent eachLater laterDistinct ?_ moves
    rw [around, List.length_append, List.length_cons]
    omega
  have succeeded : (splitDeclaration.applyAt declared).apply tree = (.ok (), after) := by
    rw [splitDeclaration_apply linked writable declaredIn, place, moves]
  have afterLinked := (coherent_of_applyAt coherent succeeded).toLinked
  have afterWritable : after.writable := split.sameFile.writable ▸ writable
  -- The variable itself is one of those that are declared, so there is a first one.
  have among : declared ∈ tree.variablesOf statement :=
    List.mem_filter.mpr ⟨linked.agree.mpr declaredIn.below, beq_iff_eq.mpr declaredIn.isVariable⟩
  obtain ⟨first, later, listed⟩ := List.exists_cons_of_ne_nil (List.ne_nil_of_mem among)
  have kept : after.variablesOf statement = [first] := by
    rw [split.variablesOf linked, filter_not_mem_tail distinct, listed]
    rfl
  have done {id declaration : NodeId} (placed : after.DeclaredIn declaration id block)
      (single : (after.variablesOf declaration).drop 1 = [])
      : (splitDeclaration.applyAt id).apply after = (.ok (), after) := by
    rw [splitDeclaration_apply afterLinked afterWritable placed, single]
    rfl
  refine ⟨after, before, behind, first, succeeded, split, around, ?_, ?_, kept, ?_, ?_⟩
  · have cut : tree.childIds block = before ++ [statement] ++ behind := by
      rw [around, List.append_assoc]
      rfl
    rw [split.inBlock, cut, List.take_left' length, List.drop_left' length, List.append_assoc]
    rfl
  · rw [listed]
    rfl
  · exact fun child member => split.child linked afterLinked declaredIn.inBlock member
  · intro id member
    by_cases moved : id ∈ (tree.variablesOf statement).drop 1
    · obtain ⟨declaration, placed, single⟩ :=
        split.declaredIn afterLinked moved (all id member).old (all id member).isVariable
      exact done placed (by rw [single]; rfl)
    · have still : statement ∉ (tree.variablesOf statement).drop 1 := fun inside =>
        (eachLater statement inside).apart rfl
      exact done (split.declaredIn_still (all id member) moved still) (by rw [kept]; rfl)

end Fix

/-- A file with a declaration in the middle of a block, and in that a written type, three variables
and a comment between them.
-/
def sharedDeclaration : Document where
  root :=
    Outline.file.withChild <| (Outline.namedClass "A").withChild <|
      (Outline.method "m").withChild <|
        Outline.codeBlock.append
          [ Outline.expressionStatement (Outline.call "first" none),
            (Outline.ofKind .declarationStatement).append
              [ Outline.typeElement "int",
                Outline.localVariable "a" "int",
                Outline.comment "/* next */",
                (Outline.localVariable "b" "int").withChild
                  ((Outline.call "size" none).withRole .initializer),
                Outline.localVariable "c" "int" ],
            Outline.returnStatement ]

/-- The second and the third variable get declarations behind the old one, and the second one has its
value still.
-/
theorem sharedDeclaration_split
    : let tree := Tree.ofDocument sharedDeclaration
      ∃ after,
        (Fix.splitDeclaration.applyAt 10).apply tree = (.ok (), after)
        ∧ after.childIds 3 = [4, 6, 14, 15, 13]
        ∧ after.childIds 6 = [7, 8, 9]
        ∧ [14, 15].map after.childIds = [[10], [12]]
        ∧ after.subtree? 10 = tree.subtree? 10
        ∧ ∀ id ∈ [8, 10, 12],
            (Fix.splitDeclaration.applyAt id).apply after = (.ok (), after) := by
  intro tree
  have declaredIn : tree.DeclaredIn 6 10 3 :=
    ⟨by decide +kernel, by decide +kernel, by decide +kernel, by decide +kernel⟩
  have declares : tree.variablesOf 6 = [8, 10, 12] := by decide +kernel
  have below : 10 ∈ tree.childIds 6 := by decide +kernel
  obtain ⟨after, _, _, _, succeeded, _, _, _, _, _, child, again⟩ :=
    Fix.splitDeclaration_splits (.loaded sharedDeclaration) rfl declaredIn
  have children : (fun result : Tree => [3, 6, 14, 15].map result.childIds)
      ((Fix.splitDeclaration.applyAt 10).apply tree).2
        = [[4, 6, 14, 15, 13], [7, 8, 9], [10], [12]] := by
    decide +kernel
  rw [succeeded] at children
  obtain ⟨inBlock, inStatement, new⟩ : after.childIds 3 = [4, 6, 14, 15, 13]
      ∧ after.childIds 6 = [7, 8, 9] ∧ [14, 15].map after.childIds = [[10], [12]] := by
    simpa using children
  exact ⟨after, succeeded, inBlock, inStatement, new, child 10 below, declares ▸ again⟩

end TreeLint
