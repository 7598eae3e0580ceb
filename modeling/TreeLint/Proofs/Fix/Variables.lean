import TreeLint.Proofs.Fix.Atomicity
import TreeLint.Proofs.Fix.Tidying

/-! What the fix that introduces a variable changes. The receiver of a call moves below a new
variable, declared right before the statement of the call, and the call gets a reference to the
variable in its place.
-/

namespace TreeLint

namespace Tree

/-- The new nodes for a variable: its declaration, and the variable. -/
def variableOutline (name typeName : String) : Outline :=
  (Outline.ofKind .declarationStatement).withChild (Outline.localVariable name typeName)

/-- The new node for a use of a variable as a receiver. -/
def referenceOutline (name typeName : String) : Outline :=
  ((Outline.referenceExpression name).withType typeName).withRole .qualifier

/-- The tree with the receiver of a call below a new variable, whose declaration is in the block. -/
def withDeclaration (tree : Tree) (call receiver block : NodeId) (index : Nat)
    (name typeName : String)
    : Tree :=
  ((((tree.grow (variableOutline name typeName)).cut call receiver).reword receiver
    ({ · with role := .initializer })).hang (tree.size + 1) 0 receiver).hang block index tree.size

/-- The same tree with a reference to the variable as the receiver of the call. -/
def withVariable (tree : Tree) (call receiver block : NodeId) (index : Nat)
    (name typeName : String)
    : Tree :=
  ((tree.withDeclaration call receiver block index name typeName).grow
    (referenceOutline name typeName)).hang call 0 (tree.size + 2)

section Nodes

variable {tree : Tree} {call receiver block : NodeId} {index : Nat} {name typeName : String}

theorem withDeclaration_size
    : (tree.withDeclaration call receiver block index name typeName).size = tree.size + 2 := by
  simp only [withDeclaration, hang_size, reword_size, cut_size, grow_size]
  rfl

theorem withVariable_size
    : (tree.withVariable call receiver block index name typeName).size = tree.size + 3 := by
  rw [withVariable, hang_size, grow_size, withDeclaration_size]
  rfl

theorem withVariable_root
    : (tree.withVariable call receiver block index name typeName).root = tree.root := by
  simp only [withVariable, withDeclaration, hang_root, grow_root, reword_root, cut_root]

/-- Of the nodes there were, the receiver, the call and the block change. -/
theorem withVariable_node?_of_lt {id : NodeId} (old : id < tree.size)
    (receiverCall : receiver ≠ call) (receiverBlock : receiver ≠ block) (callBlock : call ≠ block)
    : (tree.withVariable call receiver block index name typeName).node? id
      = if id = receiver then
          (tree.node? id).map fun node =>
            { node with
              parent := some (tree.size + 1)
              content := { node.content with role := .initializer } }
        else if id = call then
          (tree.node? id).map fun node =>
            { node with children := (tree.size + 2) :: node.children.filter (· != receiver) }
        else if id = block then
          (tree.node? id).map fun node =>
            { node with
              children := node.children.insertIdx (min index node.children.length) tree.size }
        else
          tree.node? id := by
  have first : id ≠ tree.size := Nat.ne_of_lt old
  have second : id ≠ tree.size + 1 := Nat.ne_of_lt (Nat.lt_succ_of_lt old)
  have third : id ≠ tree.size + 2 := Nat.ne_of_lt (Nat.lt_succ_of_lt (Nat.lt_succ_of_lt old))
  have inside : id < (tree.withDeclaration call receiver block index name typeName).size := by
    rw [withDeclaration_size]
    exact Nat.lt_of_lt_of_le old (Nat.le_add_right _ _)
  simp only [withVariable, hang, relink, rearrange, updateNode_node?, if_neg third]
  rw [grow_node?_of_lt inside]
  simp only [withDeclaration, hang, cut, reword, relink, rearrange, updateNode_node?,
    if_neg first, if_neg second]
  rw [grow_node?_of_lt old]
  cases tree.node? id with
  | none => simp
  | some node =>
      by_cases isReceiver : id = receiver
      · subst isReceiver
        simp [receiverCall, receiverBlock]
      · by_cases isCall : id = call
        · subst isCall
          simp [isReceiver, callBlock]
        · by_cases isBlock : id = block
          · subst isBlock
            simp [isReceiver, isCall]
          · simp [isReceiver, isCall, isBlock]

/-- The new declaration hangs in the block. -/
theorem withVariable_declaration (callOld : call < tree.size) (receiverOld : receiver < tree.size)
    (blockOld : block < tree.size)
    : (tree.withVariable call receiver block index name typeName).node? tree.size
      = some
          { content := { kind := .declarationStatement }
            parent := some block
            children := [tree.size + 1] } := by
  have inside : tree.size < (tree.withDeclaration call receiver block index name typeName).size := by
    rw [withDeclaration_size]
    exact Nat.lt_add_of_pos_right (by decide)
  rw [withVariable, hang_node?_other (Nat.ne_of_gt callOld) (by simp), grow_node?_of_lt inside,
    withDeclaration, hang_node?_child (Nat.ne_of_gt blockOld),
    hang_node?_other (by simp) (Nat.ne_of_gt receiverOld),
    reword_node?_other (Nat.ne_of_gt receiverOld),
    cut_node?_other (Nat.ne_of_gt callOld) (Nat.ne_of_gt receiverOld)]
  exact congrArg _ (tree.grow_node?_add (variableOutline name typeName) 0)

/-- The new variable hangs in the declaration, and the receiver in the variable. -/
theorem withVariable_variable (callOld : call < tree.size) (receiverOld : receiver < tree.size)
    (blockOld : block < tree.size)
    : (tree.withVariable call receiver block index name typeName).node? (tree.size + 1)
      = some
          { content := (Outline.localVariable name typeName).content
            parent := some tree.size
            children := [receiver] } := by
  have later {id : NodeId} (old : id < tree.size) : tree.size + 1 ≠ id :=
    Nat.ne_of_gt (Nat.lt_succ_of_lt old)
  have inside : tree.size + 1
      < (tree.withDeclaration call receiver block index name typeName).size := by
    rw [withDeclaration_size]
    exact Nat.lt_succ_self _
  rw [withVariable, hang_node?_other (later callOld) (by simp), grow_node?_of_lt inside,
    withDeclaration, hang_node?_other (later blockOld) (by simp),
    hang_node?_parent (later receiverOld).symm, reword_node?_other (later receiverOld),
    cut_node?_other (later callOld) (later receiverOld)]
  exact congrArg _ (tree.grow_node?_add (variableOutline name typeName) 1)

/-- The new reference hangs in the call. -/
theorem withVariable_reference (callOld : call < tree.size)
    : (tree.withVariable call receiver block index name typeName).node? (tree.size + 2)
      = some
          { content := (referenceOutline name typeName).content
            parent := some call
            children := [] } := by
  have new := (tree.withDeclaration call receiver block index name typeName).grow_node?_add
    (referenceOutline name typeName) 0
  rw [withDeclaration_size] at new
  rw [withVariable, hang_node?_child (Nat.ne_of_gt (Nat.lt_succ_of_lt (Nat.lt_succ_of_lt callOld)))]
  exact congrArg _ new

end Nodes

-----------------------------------------------------------------------------------------
-- Where a variable is introduced
-----------------------------------------------------------------------------------------

/-- The call has the receiver, and the block is above it. -/
structure Introduces (tree : Tree) (call receiver block : NodeId) : Prop where
  receiverAt : tree.childAt? call .qualifier = some receiver
  isBlock : tree.kind? block = some .codeBlock
  around : tree.Above block call

namespace Introduces

variable {tree : Tree} {call receiver block : NodeId} {index : Nat} {name typeName : String}

theorem below (introduces : tree.Introduces call receiver block) (linked : tree.Linked)
    : tree.parent? receiver = some call :=
  linked.agree.mp (List.mem_of_find?_eq_some introduces.receiverAt)

theorem receiverOld (introduces : tree.Introduces call receiver block) (linked : tree.Linked)
    : receiver < tree.size :=
  lt_size_of_parent? (introduces.below linked)

theorem callOld (introduces : tree.Introduces call receiver block) (linked : tree.Linked)
    : call < tree.size :=
  (linked.above_lt introduces.around).2

theorem blockOld (introduces : tree.Introduces call receiver block) (linked : tree.Linked)
    : block < tree.size :=
  (linked.above_lt introduces.around).1

/-- The block, the call and the receiver are on one way down. -/
theorem distinct (introduces : tree.Introduces call receiver block) (linked : tree.Linked)
    : receiver ≠ call ∧ receiver ≠ block ∧ call ≠ block := by
  have last : tree.IsParent call receiver := introduces.below linked
  refine ⟨?_, ?_, ?_⟩
  · rintro rfl
    exact linked.acyclic receiver (.single last)
  · rintro rfl
    exact linked.acyclic receiver (introduces.around.tail last)
  · rintro rfl
    exact linked.acyclic call introduces.around

/-- The receiver hangs below the new variable, and nothing else moves. -/
theorem parent? (introduces : tree.Introduces call receiver block) (linked : tree.Linked)
    {id : NodeId} (old : id < tree.size)
    : (tree.withVariable call receiver block index name typeName).parent? id
      = if id = receiver then some (tree.size + 1) else tree.parent? id := by
  obtain ⟨receiverCall, receiverBlock, callBlock⟩ := introduces.distinct linked
  obtain ⟨node, here⟩ := node?_exists old
  rw [Tree.parent?, Tree.parent?,
    withVariable_node?_of_lt old receiverCall receiverBlock callBlock, here]
  split
  · rfl
  · split
    · rfl
    · split <;> rfl

/-- Nothing but the receiver moves. -/
theorem frame (introduces : tree.Introduces call receiver block) (linked : tree.Linked)
    : tree.Frame [receiver] (tree.withVariable call receiver block index name typeName) where
  root := withVariable_root
  writable := by
    simp only [withVariable, withDeclaration, hang_writable, grow_writable, reword_writable,
      cut_writable]
  grows := by
    rw [withVariable_size]
    exact Nat.le_add_right _ _
  parents id old still := by
    rw [introduces.parent? linked old, if_neg (by simpa using still)]

/-- The receiver stays below the block, in the new declaration. -/
theorem above_receiver (introduces : tree.Introduces call receiver block) (linked : tree.Linked)
    : (tree.withVariable call receiver block index name typeName).Above block receiver := by
  have callOld := introduces.callOld linked
  have receiverOld := introduces.receiverOld linked
  have blockOld := introduces.blockOld linked
  have lower : (tree.withVariable call receiver block index name typeName).parent? receiver
      = some (tree.size + 1) := by
    rw [introduces.parent? linked receiverOld, if_pos rfl]
  have middle : (tree.withVariable call receiver block index name typeName).parent? (tree.size + 1)
      = some tree.size := by
    rw [Tree.parent?, withVariable_variable callOld receiverOld blockOld]
    rfl
  have upper : (tree.withVariable call receiver block index name typeName).parent? tree.size
      = some block := by
    rw [Tree.parent?, withVariable_declaration callOld receiverOld blockOld]
    rfl
  exact .tail (.tail (.single upper) middle) lower

/-- The call gets the reference for the receiver, and the block the new declaration. -/
theorem childIds (introduces : tree.Introduces call receiver block) (linked : tree.Linked)
    {id : NodeId} (old : id < tree.size)
    : (tree.withVariable call receiver block index name typeName).childIds id
      = if id = call then
          (tree.size + 2) :: (tree.childIds id).filter (· != receiver)
        else if id = block then
          (tree.childIds id).insertIdx (min index (tree.childIds id).length) tree.size
        else
          tree.childIds id := by
  obtain ⟨receiverCall, receiverBlock, callBlock⟩ := introduces.distinct linked
  obtain ⟨node, here⟩ := node?_exists old
  rw [Tree.childIds, Tree.childIds,
    withVariable_node?_of_lt old receiverCall receiverBlock callBlock, here]
  split
  · next same =>
      subst same
      rw [if_neg receiverCall, if_neg receiverBlock]
      rfl
  · split
    · rfl
    · split <;> rfl

/-- The receiver becomes the value of the new variable, and nothing else says something new. -/
theorem content? (introduces : tree.Introduces call receiver block) (linked : tree.Linked)
    {id : NodeId} (old : id < tree.size)
    : (tree.withVariable call receiver block index name typeName).content? id
      = if id = receiver then
          (tree.content? id).map ({ · with role := .initializer })
        else
          tree.content? id := by
  obtain ⟨receiverCall, receiverBlock, callBlock⟩ := introduces.distinct linked
  obtain ⟨node, here⟩ := node?_exists old
  rw [Tree.content?, Tree.content?,
    withVariable_node?_of_lt old receiverCall receiverBlock callBlock, here]
  split
  · rfl
  · split
    · rfl
    · split <;> rfl

/-- Three numbers follow the last one in use. -/
theorem among_next_three {size number : Nat} (least : size ≤ number) (below : number < size + 3)
    : number = size ∨ number = size + 1 ∨ number = size + 2 := by
  omega

/-- The new nodes say that they declare a variable and refer to it. -/
theorem content?_new (introduces : tree.Introduces call receiver block) (linked : tree.Linked)
    {id : NodeId} {content : Content} (new : tree.size ≤ id)
    (known : (tree.withVariable call receiver block index name typeName).content? id = some content)
    : id = tree.size ∧ content = { kind := .declarationStatement }
      ∨ id = tree.size + 1 ∧ content = (Outline.localVariable name typeName).content
      ∨ id = tree.size + 2 ∧ content = (referenceOutline name typeName).content := by
  have callOld := introduces.callOld linked
  have receiverOld := introduces.receiverOld linked
  have blockOld := introduces.blockOld linked
  have inside := lt_size_of_content? known
  rw [withVariable_size] at inside
  rw [Tree.content?] at known
  rcases among_next_three new inside with rfl | rfl | rfl
  · rw [withVariable_declaration callOld receiverOld blockOld] at known
    exact Or.inl ⟨rfl, (Option.some.inj known).symm⟩
  · rw [withVariable_variable callOld receiverOld blockOld] at known
    exact Or.inr (Or.inl ⟨rfl, (Option.some.inj known).symm⟩)
  · rw [withVariable_reference callOld] at known
    exact Or.inr (Or.inr ⟨rfl, (Option.some.inj known).symm⟩)

/-- A node other than the receiver is to its parent what it was. -/
theorem guise?_of_ne (introduces : tree.Introduces call receiver block) (linked : tree.Linked)
    {id : NodeId} (old : id < tree.size) (other : id ≠ receiver)
    : (tree.withVariable call receiver block index name typeName).guise? id = tree.guise? id := by
  rw [guise?, guise?, introduces.content? linked old, if_neg other]

/-- The new declaration has one variable. -/
theorem variablesOf_new (introduces : tree.Introduces call receiver block) (linked : tree.Linked)
    : (((tree.withVariable call receiver block index name typeName).variablesOf
        tree.size).drop 1) = [] := by
  refine List.drop_eq_nil_of_le (Nat.le_trans (List.length_filter_le _ _) ?_)
  rw [Tree.childIds, withVariable_declaration (introduces.callOld linked)
    (introduces.receiverOld linked) (introduces.blockOld linked)]
  exact Nat.le_refl 1

/-- Introducing a variable tidies a tree, except at the call itself. -/
theorem tidied (introduces : tree.Introduces call receiver block) (linked : tree.Linked)
    (isCall : ∃ kind ∈ [NodeKind.methodCall, .fragment], tree.kind? call = some kind)
    : tree.Tidied (· = call) (tree.withVariable call receiver block index name typeName) where
  contents id content before := by
    rw [introduces.content? linked (lt_size_of_content? before), before]
    split
    · exact ⟨_, rfl, rfl, rfl, rfl, rfl, fun extends_ => Role.noConfusion extends_,
        fun _ member => member⟩
    · exact ⟨content, rfl, .refl content⟩
  parents id old := by
    rw [introduces.parent? linked old]
    split
    · next same =>
        subst same
        refine Or.inr ⟨by simp [introduces.below linked], fun upper up => ?_⟩
        exact Nat.le_of_lt (Nat.lt_of_succ_le (Nat.le_of_eq (Option.some.inj up)))
    · exact Or.inl rfl
  shapes id := by
    by_cases old : id < tree.size
    · have children : (tree.withVariable call receiver block index name typeName).childIds id = _ :=
        introduces.childIds linked old
      by_cases isCaller : id = call
      · subst isCaller
        obtain ⟨kind, among, isKind⟩ := isCall
        have other {kind : NodeKind} (foreign : kind ∉ [NodeKind.methodCall, .fragment])
            : tree.kind? id ≠ some kind := fun isOther =>
          foreign (Option.some.inj (isKind.symm.trans isOther) ▸ among)
        exact
          { types := fun isField => absurd isField (other (by decide))
            declarations := fun isDeclaration => absurd isDeclaration (other (by decide))
            parentheses := fun around => absurd around (other (by decide))
            receivers := fun _ apart => absurd rfl apart }
      · -- The receiver is a child of the call and of nothing else.
        have guises : ∀ child ∈ tree.childIds id,
            (tree.withVariable call receiver block index name typeName).guise? child
              = tree.guise? child := by
          intro child member
          refine introduces.guise?_of_ne linked (linked.child_lt member) ?_
          rintro rfl
          exact isCaller (Option.some.inj
            ((linked.agree.mp member).symm.trans (introduces.below linked)))
        rw [if_neg isCaller] at children
        by_cases isBlock : id = block
        · subst isBlock
          have declaration
              : (tree.withVariable call receiver id index name typeName).node? tree.size = _ :=
            withVariable_declaration (introduces.callOld linked) (introduces.receiverOld linked)
              (introduces.blockOld linked)
          refine .of_insert (by rw [children, if_pos rfl]) (Nat.min_le_right _ _) guises ?_ ?_ ?_
          · rw [kind?, Tree.content?, declaration]
            exact fun isVariable => NodeKind.noConfusion (Option.some.inj isVariable)
          · rw [Tree.content?, declaration]
            rfl
          · exact fun around => absurd (introduces.isBlock.symm.trans around) (by decide)
        · exact .of_children (by rw [children, if_neg isBlock]) guises
    · exact .of_new (Nat.le_of_not_lt old)
  newContents id content new known := by
    have added : NodeKind.declarationStatement ∈ addedKinds ∧ NodeKind.localVariable ∈ addedKinds
        ∧ NodeKind.referenceExpression ∈ addedKinds := by decide
    rcases introduces.content?_new linked new known with ⟨_, rfl⟩ | ⟨_, rfl⟩ | ⟨_, rfl⟩
    · exact ⟨added.1, rfl, fun extends_ => Role.noConfusion extends_⟩
    · exact ⟨added.2.1, rfl, fun extends_ => Role.noConfusion extends_⟩
    · exact ⟨added.2.2, rfl, fun extends_ => Role.noConfusion extends_⟩
  newDeclarations id new isKind := by
    obtain ⟨content, known, isDeclaration⟩ := kind?_eq_some_iff.mp isKind
    rcases introduces.content?_new linked new known with ⟨rfl, _⟩ | ⟨_, rfl⟩ | ⟨_, rfl⟩
    · exact introduces.variablesOf_new linked
    · exact NodeKind.noConfusion isDeclaration
    · exact NodeKind.noConfusion isDeclaration

/-- The call no longer calls the result of a call: its receiver is a reference. -/
theorem notChained (introduces : tree.Introduces call receiver block) (linked : tree.Linked)
    : ¬(tree.withVariable call receiver block index name typeName).CallsResult call := by
  rintro ⟨now, shown, _, reference, found, kind⟩
  obtain rfl := subtree?_id shown
  have callOld := introduces.callOld linked
  have inside := (subtree?_of_mem_children shown (List.mem_of_find?_eq_some found)).1
  have first := childWithRole?_id shown .qualifier
  rw [found, Option.map_some, childAt?, introduces.childIds linked callOld, if_pos rfl,
    List.find?_cons_of_pos (by rw [Tree.content?, withVariable_reference callOld]; rfl)] at first
  have isReference : reference.kind = .referenceExpression := by
    have isKind := kind?_of_shown inside
    rw [Option.some.inj first, kind?, Tree.content?, withVariable_reference callOld] at isKind
    exact (Option.some.inj isKind).symm
  rw [Subtree.stripParentheses_of_ne (by rw [isReference]; decide), isReference] at kind
  exact absurd kind (by decide)

end Introduces

end Tree

namespace Fix

open TreeLint.Tree

-----------------------------------------------------------------------------------------
-- What the fix does
-----------------------------------------------------------------------------------------

/-- The receiver of the call gets a name, declared right before the nearest statement of a block that
the call is in.
-/
theorem introduceVariable_moves {tree after : Tree} (coherent : tree.Coherent) {anchor : NodeId}
    (succeeded : (introduceVariable.applyAt anchor).apply tree = (.ok (), after))
    : ∃ receiver statement block,
        (tree.subtree? anchor).bind (·.childWithRole? .qualifier) = some receiver
        ∧ (tree.ancestors anchor).find? (isBlockStatement tree) = some statement
        ∧ tree.parent? statement = some block
        ∧ tree.Introduces anchor receiver.id block
        ∧ after
          = tree.withVariable anchor receiver.id block ((tree.indexInParent? statement).getD 0)
              (variableName receiver.stripParentheses) (receiver.typeName?.getD "var") := by
  obtain ⟨_, present, rest⟩ := Edit.ensureNode_succeeded succeeded
  have looked := Edit.current_succeeded rest
  cases shown : tree.subtree? anchor with
  | none =>
      rw [shown] at looked
      exact absurd looked Edit.failed_ne_succeeded
  | some call =>
      rw [shown] at looked
      obtain rfl := subtree?_id shown
      obtain ⟨qualifier, isQualifier, more⟩ := Edit.require_succeeded looked
      obtain ⟨statement, isStatement, more⟩ := Edit.require_succeeded more
      obtain ⟨block, inBlock, more⟩ := Edit.require_succeeded more
      -- The new nodes come first, and then the receiver moves to them.
      obtain ⟨declaration, grown, grows, more⟩ := Edit.bind_succeeded more
      obtain ⟨rfl, rfl⟩ := Edit.addOutline_succeeded grows
      have more := Edit.current_succeeded more
      obtain ⟨declared, isDeclared, more⟩ := Edit.require_succeeded more
      rw [grow_childIds_one] at isDeclared
      cases isDeclared
      have grownCoherent := coherent.grow ((Outline.ofKind .declarationStatement).withChild
        (Outline.localVariable (variableName qualifier.stripParentheses)
          (qualifier.typeName?.getD "var")))
      obtain ⟨_, cut, cuts, more⟩ := Edit.bind_succeeded more
      obtain ⟨parent, up, isCut⟩ := Edit.detach_succeeded cuts
      have cutCoherent : cut.Coherent := isCut ▸ grownCoherent.cut up
      obtain ⟨_, worded, words, more⟩ := Edit.bind_succeeded more
      obtain ⟨_, isWorded⟩ := Edit.reword_succeeded words
      have wordedCoherent : worded.Coherent := isWorded ▸ cutCoherent.reword _ _
      obtain ⟨_, filled, fills, more⟩ := Edit.bind_succeeded more
      obtain ⟨inner, isFilled⟩ := Edit.insertChild_succeeded wordedCoherent.toLinked fills
      have filledCoherent : filled.Coherent := isFilled ▸ wordedCoherent.hang inner 0
      obtain ⟨_, hung, hangs, more⟩ := Edit.bind_succeeded more
      obtain ⟨outer, isHung⟩ := Edit.insertChild_succeeded filledCoherent.toLinked hangs
      have hungCoherent : hung.Coherent := isHung ▸ filledCoherent.hang outer _
      obtain ⟨result, _⟩ := Edit.hangNew_succeeded hungCoherent more
      have receiverUp := coherent.parent?_of_mem_children shown
        (List.mem_of_find?_eq_some isQualifier)
      rw [grow_parent?_of_lt (lt_size_of_parent? receiverUp), receiverUp] at up
      have declared : hung = tree.withDeclaration call.id qualifier.id block
          ((tree.indexInParent? statement).getD 0) (variableName qualifier.stripParentheses)
          (qualifier.typeName?.getD "var") := by
        rw [isHung, isFilled, isWorded, isCut, ← Option.some.inj up]
        rfl
      rw [declared, withDeclaration_size] at result
      refine ⟨qualifier, statement, block, isQualifier, isStatement, inBlock, ⟨?_, ?_, ?_⟩, result⟩
      · rw [← childWithRole?_id shown, isQualifier, Option.map_some]
      · have test := List.find?_some isStatement
        rw [isBlockStatement, Bool.and_eq_true, parentContent?, inBlock, Option.bind_some] at test
        obtain ⟨content, known, isBlock⟩ := (Option.any_eq_true _ _).mp test.2
        exact kind?_eq_some_iff.mpr ⟨content, known, eq_of_beq isBlock⟩
      · exact .head inBlock (coherent.mem_ancestors.mp (List.mem_of_find?_eq_some isStatement))

/-- The receiver of the call gets a name, declared in a block above the call. -/
theorem introduceVariable_succeeded {tree after : Tree} (coherent : tree.Coherent)
    {anchor : NodeId}
    (succeeded : (introduceVariable.applyAt anchor).apply tree = (.ok (), after))
    : ∃ receiver block index name typeName,
        tree.Introduces anchor receiver block
        ∧ after = tree.withVariable anchor receiver block index name typeName := by
  obtain ⟨receiver, _, block, _, _, _, introduces, same⟩ :=
    introduceVariable_moves coherent succeeded
  exact ⟨receiver.id, block, _, _, _, introduces, same⟩

/-- A variable for a receiver tidies the tree, and the call no longer calls the result of a call. -/
theorem introduceVariable_tidies {tree after : Tree} (coherent : tree.Coherent) {anchor : NodeId}
    (isCall : ∃ kind ∈ [NodeKind.methodCall, .fragment], tree.kind? anchor = some kind)
    (succeeded : (introduceVariable.applyAt anchor).apply tree = (.ok (), after))
    : tree.Tidied (· = anchor) after ∧ ¬after.CallsResult anchor := by
  obtain ⟨_, _, _, _, _, introduces, same⟩ := introduceVariable_succeeded coherent succeeded
  rw [same]
  exact ⟨introduces.tidied coherent.toLinked isCall, introduces.notChained coherent.toLinked⟩

end Fix

end TreeLint
