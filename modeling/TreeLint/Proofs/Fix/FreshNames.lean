import Mathlib.Data.List.Find
import TreeLint.Proofs.Rule.Diagnostics
import TreeLint.Proofs.Tree.Levels

/-! The names of the variables that are introduced for the receivers of calls. A name is made from
the receiver alone, so it may be that of another variable of the block or of a parameter. Main
result: after any fixes of this sort at calls, the next one gives a fresh name exactly if the name is
neither that of a variable that the block declared at first, nor one that a fix before has given in
the same block, nor that of a parameter of the method around.
-/

namespace TreeLint

open Relation

-----------------------------------------------------------------------------------------
-- Names in scope
-----------------------------------------------------------------------------------------

namespace Tree

/-- The name that a node declares or refers to. -/
def name? (tree : Tree) (id : NodeId) : Option String :=
  (tree.content? id).bind (·.name)

/-- The local variables that the declaration statements of a block declare. -/
def localsOf (tree : Tree) (block : NodeId) : List NodeId :=
  ((tree.childIds block).filter (tree.kind? · == some .declarationStatement)).flatMap
    tree.variablesOf

/-- The parameters of the nearest method around a node. -/
def parametersAround (tree : Tree) (id : NodeId) : List NodeId :=
  ((tree.ancestors id).find? tree.isMethodAt).elim [] fun method =>
    (tree.childIds method).filter (tree.kind? · == some .parameter)

/-- The names of the local variables that a block declares. -/
def localNames (tree : Tree) (block : NodeId) : List String :=
  (tree.localsOf block).filterMap tree.name?

/-- A variable of a block has another name than the other variables that the block declares and than
the parameters of the method around.
-/
structure NamedApart (tree : Tree) (block declared : NodeId) : Prop where
  locals
    : ∀ other ∈ tree.localsOf block, other ≠ declared → tree.name? other ≠ tree.name? declared
  parameters
    : ∀ parameter ∈ tree.parametersAround block, tree.name? parameter ≠ tree.name? declared

/-- The name that is made for the receiver of a call. -/
def receiverName (tree : Tree) (call : NodeId) : String :=
  ((tree.subtree? call).bind (·.childWithRole? .qualifier)).elim "value" fun receiver =>
    Fix.variableName receiver.stripParentheses

/-- The block of the nearest statement of a block around a node. -/
def blockAround? (tree : Tree) (id : NodeId) : Option NodeId :=
  ((tree.ancestors id).find? (Fix.isBlockStatement tree)).bind tree.parent?

/-- The name that the fix gives at a call of a tree after it was applied at some calls. Where it was
applied before, the receiver is a reference and the name says nothing of it.
-/
def givenName (tree : Tree) (calls : List NodeId) (call : NodeId) : String :=
  if call ∈ calls then "value" else tree.receiverName call

/-- The names that the fix gives in a block, applied at some calls of a tree, at the last one first.
-/
def namesGiven (tree : Tree) (block : NodeId) : List NodeId → List String
  | [] => []
  | call :: calls =>
      if tree.blockAround? call = some block then
        tree.givenName calls call :: tree.namesGiven block calls
      else
        tree.namesGiven block calls

/-- The second tree is the first after variables were introduced at calls, reported ones or others,
at the last one of the list first.
-/
inductive Introduced (tree : Tree) : List NodeId → Tree → Prop where
  | start : tree.Introduced [] tree
  | next {calls : List NodeId} {before after : Tree} {call : NodeId}
    (history : tree.Introduced calls before) (isCall : before.kind? call = some .methodCall)
    (succeeded : (Fix.introduceVariable.applyAt call).apply before = (.ok (), after))
    : tree.Introduced (call :: calls) after

end Tree

variable {tree after : Tree}

namespace Tree

theorem Linked.mem_localsOf (linked : tree.Linked) {block id : NodeId}
    : id ∈ tree.localsOf block
      ↔ ∃ declaration,
          tree.parent? declaration = some block
          ∧ tree.kind? declaration = some .declarationStatement
          ∧ tree.parent? id = some declaration
          ∧ tree.kind? id = some .localVariable := by
  simp only [localsOf, variablesOf, List.mem_flatMap, List.mem_filter, linked.agree, beq_iff_eq,
    and_assoc]

/-- A statement of a block is told by its kind and that of its parent. -/
theorem isBlockStatement_eq (tree : Tree) (id : NodeId)
    : Fix.isBlockStatement tree id
      = ((tree.kind? id).any (·.isStatement)
        && ((tree.parent? id).bind tree.kind?).any (· == .codeBlock)) := by
  rw [Fix.isBlockStatement, parentContent?, kind?, Option.any_map]
  cases tree.parent? id with
  | none => rfl
  | some upper => simp only [Option.bind_some, kind?, Option.any_map]

/-- A node is in the block of its parent if that is a statement of a block, and otherwise where the
parent is.
-/
theorem Linked.blockAround?_of_parent (linked : tree.Linked) {id upper : NodeId}
    (up : tree.parent? id = some upper)
    : tree.blockAround? id
      = if Fix.isBlockStatement tree upper then tree.parent? upper
        else tree.blockAround? upper := by
  rw [blockAround?, linked.ancestors_eq, up]
  simp only [List.find?_cons]
  cases Fix.isBlockStatement tree upper <;> rfl

theorem Linked.blockAround?_of_top (linked : tree.Linked) {id : NodeId}
    (top : tree.parent? id = none)
    : tree.blockAround? id = none := by
  rw [blockAround?, linked.ancestors_eq, top]
  rfl

/-- Receivers that are the same node, and are seen alike and named alike in two trees, make the same
name.
-/
theorem receiverName_alike (linked : tree.Linked) (afterLinked : after.Linked) {call : NodeId}
    (present : call < tree.size) (grows : tree.size ≤ after.size)
    (receiver : after.childAt? call .qualifier = tree.childAt? call .qualifier)
    (kinds : ∀ id < tree.size, after.kind? id = tree.kind? id)
    (names : ∀ id < tree.size, after.name? id = tree.name? id)
    (heads
      : ∀ id,
          tree.kind? id = some .parenthesizedExpression
          → (after.childIds id).head? = (tree.childIds id).head?)
    : after.receiverName call = tree.receiverName call := by
  have alike : ∀ id < tree.size, SeenAlike (fun _ => true) tree after id := by
    intro id old
    obtain ⟨content, known⟩ := content?_exists old
    have isKind : tree.kind? id = some content.kind := kind?_eq_some_iff.mpr ⟨_, known, rfl⟩
    exact ⟨_, _, isKind, (kinds id old).trans isKind, rfl, .rfl, fun around =>
      heads id (isKind.trans (congrArg some around))⟩
  obtain ⟨found, shown⟩ := linked.subtree?_exists present
  obtain ⟨now, nowShown⟩ := afterLinked.subtree?_exists (Nat.lt_of_lt_of_le present grows)
  obtain rfl := subtree?_id shown
  have same : now.id = found.id := subtree?_id nowShown
  rw [receiverName, receiverName, shown, nowShown, Option.bind_some, Option.bind_some]
  rw [← same] at nowShown
  cases isNow : now.childWithRole? .qualifier with
  | none =>
      rw [← childWithRole?_id shown, ← same, ← childWithRole?_id nowShown, isNow, Option.map_none,
        eq_comm, Option.map_eq_none_iff] at receiver
      rw [receiver]
  | some nowChild =>
      obtain ⟨child, isChild, number, childShown, nowChildShown⟩ :=
        childWithRole?_before shown nowShown same receiver isNow
      obtain ⟨inside, nowInside, sameInside⟩ :=
        stripParentheses_counterpart alike childShown nowChildShown number
      have old := lt_size_of_kind? (kind?_of_shown inside)
      have sameKind := kinds _ old
      have sameName := names _ old
      rw [← sameInside, kind?_of_shown nowInside, sameInside, kind?_of_shown inside,
        Option.some.injEq] at sameKind
      rw [name?, name?, ← sameInside, content?_of_shown nowInside, sameInside,
        content?_of_shown inside, Option.bind_some, Option.bind_some] at sameName
      rw [isChild, Option.elim_some, Option.elim_some, Fix.variableName, Fix.variableName, sameKind,
        Subtree.name?, Subtree.name?, sameName]

-----------------------------------------------------------------------------------------
-- One variable more
-----------------------------------------------------------------------------------------

namespace Introduces

variable {call receiver block : NodeId} {index : Nat} {name typeName : String}

theorem kind?_of_lt (introduces : tree.Introduces call receiver block) (linked : tree.Linked)
    {id : NodeId} (old : id < tree.size)
    : (tree.withVariable call receiver block index name typeName).kind? id = tree.kind? id := by
  rw [kind?, kind?, introduces.content? linked old]
  split
  · rw [Option.map_map]
    rfl
  · rfl

theorem name?_of_lt (introduces : tree.Introduces call receiver block) (linked : tree.Linked)
    {id : NodeId} (old : id < tree.size)
    : (tree.withVariable call receiver block index name typeName).name? id = tree.name? id := by
  rw [name?, name?, introduces.content? linked old]
  split
  · rw [Option.bind_map]
    rfl
  · rfl

/-- The new nodes, with their kinds and the places where they hang. -/
theorem new_nodes (introduces : tree.Introduces call receiver block) (linked : tree.Linked)
    (index : Nat) (name typeName : String)
    : let after := tree.withVariable call receiver block index name typeName
      (after.kind? tree.size = some .declarationStatement
          ∧ after.parent? tree.size = some block)
        ∧ (after.kind? (tree.size + 1) = some .localVariable
          ∧ after.parent? (tree.size + 1) = some tree.size
          ∧ after.name? (tree.size + 1) = some name)
        ∧ (after.kind? (tree.size + 2) = some .referenceExpression
          ∧ after.parent? (tree.size + 2) = some call) := by
  intro after
  have callOld := introduces.callOld linked
  have receiverOld := introduces.receiverOld linked
  have blockOld := introduces.blockOld linked
  simp only [after, kind?, name?, Tree.content?, Tree.parent?,
    withVariable_declaration callOld receiverOld blockOld,
    withVariable_variable callOld receiverOld blockOld, withVariable_reference callOld]
  exact ⟨⟨rfl, rfl⟩, ⟨rfl, rfl, rfl⟩, rfl, rfl⟩

/-- A new node is the declaration, the variable or the reference. -/
theorem among_new (introduces : tree.Introduces call receiver block) (linked : tree.Linked)
    {id : NodeId} {kind : NodeKind} (new : ¬id < tree.size)
    (isKind
      : (tree.withVariable call receiver block index name typeName).kind? id = some kind)
    : id = tree.size ∧ kind = .declarationStatement
      ∨ id = tree.size + 1 ∧ kind = .localVariable
      ∨ id = tree.size + 2 ∧ kind = .referenceExpression := by
  obtain ⟨content, known, rfl⟩ := kind?_eq_some_iff.mp isKind
  rcases introduces.content?_new linked (Nat.le_of_not_lt new) known with
    ⟨same, rfl⟩ | ⟨same, rfl⟩ | ⟨same, rfl⟩
  · exact .inl ⟨same, rfl⟩
  · exact .inr (.inl ⟨same, rfl⟩)
  · exact .inr (.inr ⟨same, rfl⟩)

/-- Nodes other than the call and the block have the children that they had. -/
theorem childIds_other (introduces : tree.Introduces call receiver block) (linked : tree.Linked)
    (isCall : tree.kind? call = some .methodCall) {id : NodeId} {kind : NodeKind}
    (isKind : tree.kind? id = some kind) (other : kind ∉ [.methodCall, .codeBlock])
    : (tree.withVariable call receiver block index name typeName).childIds id
      = tree.childIds id := by
  have apart {upper : NodeId} {upperKind : NodeKind} (isUpper : tree.kind? upper = some upperKind)
      (among : upperKind ∈ [.methodCall, .codeBlock])
      : id ≠ upper := by
    rintro rfl
    cases isKind.symm.trans isUpper
    exact other among
  rw [introduces.childIds linked (lt_size_of_kind? isKind), if_neg (apart isCall (by decide)),
    if_neg (apart introduces.isBlock (by decide))]

/-- The block has the new declaration for a child, and otherwise the children that it had, as every
node but the call does.
-/
theorem mem_childIds (introduces : tree.Introduces call receiver block) (linked : tree.Linked)
    {other child : NodeId} (old : other < tree.size) (notCall : other ≠ call)
    : child ∈ (tree.withVariable call receiver block index name typeName).childIds other
      ↔ child ∈ tree.childIds other ∨ other = block ∧ child = tree.size := by
  rw [introduces.childIds linked old, if_neg notCall]
  split
  · next same => rw [List.mem_insertIdx (Nat.min_le_right _ _), and_iff_right same, or_comm]
  · next apart => simp only [apart, false_and, or_false]

/-- An old declaration declares what it did. -/
theorem variablesOf_old (introduces : tree.Introduces call receiver block) (linked : tree.Linked)
    (isCall : tree.kind? call = some .methodCall) {id : NodeId}
    (isDeclaration : tree.kind? id = some .declarationStatement)
    : (tree.withVariable call receiver block index name typeName).variablesOf id
      = tree.variablesOf id :=
  variablesOf_congr (introduces.childIds_other linked isCall isDeclaration (by decide))
    fun _ member => introduces.kind?_of_lt linked (linked.child_lt member)

/-- The new declaration declares the new variable. -/
theorem variablesOf_declaration (introduces : tree.Introduces call receiver block)
    (linked : tree.Linked)
    : (tree.withVariable call receiver block index name typeName).variablesOf tree.size
      = [tree.size + 1] := by
  obtain ⟨_, ⟨isVariable, _⟩, _⟩ :=
    introduces.new_nodes linked index name typeName
  rw [variablesOf, Tree.childIds, withVariable_declaration (introduces.callOld linked)
    (introduces.receiverOld linked) (introduces.blockOld linked)]
  exact List.filter_eq_self.mpr (List.forall_mem_singleton.mpr (beq_iff_eq.mpr isVariable))

/-- The block declares the new variable, and otherwise what it did, as every node but the call does.
-/
theorem mem_localsOf (introduces : tree.Introduces call receiver block) (linked : tree.Linked)
    (isCall : tree.kind? call = some .methodCall) {other id : NodeId} (old : other < tree.size)
    (notCall : other ≠ call)
    : id ∈ (tree.withVariable call receiver block index name typeName).localsOf other
      ↔ id ∈ tree.localsOf other ∨ other = block ∧ id = tree.size + 1 := by
  have same {child : NodeId} (member : child ∈ tree.childIds other)
      : (tree.withVariable call receiver block index name typeName).kind? child
            = some .declarationStatement
          ∧ id ∈ (tree.withVariable call receiver block index name typeName).variablesOf child
        ↔ tree.kind? child = some .declarationStatement ∧ id ∈ tree.variablesOf child := by
    rw [introduces.kind?_of_lt linked (linked.child_lt member)]
    exact and_congr_right fun isDeclaration => by
      rw [introduces.variablesOf_old linked isCall isDeclaration]
  obtain ⟨⟨isDeclaration, _⟩, _⟩ :=
    introduces.new_nodes linked index name typeName
  simp only [localsOf, List.mem_flatMap, List.mem_filter, beq_iff_eq,
    introduces.mem_childIds linked old notCall, or_and_right, exists_or, and_assoc,
    exists_eq_left, exists_and_left, isDeclaration, introduces.variablesOf_declaration linked,
    List.mem_singleton, true_and]
  exact or_congr_left (exists_congr fun _ => and_congr_right same)

/-- The block has the name of the new variable, and otherwise the names that it had, as every node
but the call does.
-/
theorem mem_localNames (introduces : tree.Introduces call receiver block) (linked : tree.Linked)
    (isCall : tree.kind? call = some .methodCall) {other : NodeId} (old : other < tree.size)
    (notCall : other ≠ call) {given : String}
    : given ∈ (tree.withVariable call receiver block index name typeName).localNames other
      ↔ given ∈ tree.localNames other ∨ other = block ∧ given = name := by
  obtain ⟨_, ⟨_, _, named⟩, _⟩ :=
    introduces.new_nodes linked index name typeName
  simp only [localNames, List.mem_filterMap,
    introduces.mem_localsOf linked isCall old notCall, or_and_right, exists_or, and_assoc,
    exists_eq_left, exists_and_left, named, Option.some.injEq, eq_comm (b := given)]
  refine or_congr_left (exists_congr fun id => and_congr_right fun among => ?_)
  obtain ⟨_, _, _, _, isVariable⟩ := linked.mem_localsOf.mp among
  rw [introduces.name?_of_lt linked (lt_size_of_kind? isVariable)]

/-- An old node is a statement of a block where it was. The receiver was none below the call, and is
none below the variable.
-/
theorem isBlockStatement_old (introduces : tree.Introduces call receiver block)
    (linked : tree.Linked) (isCall : tree.kind? call = some .methodCall) {id : NodeId}
    (old : id < tree.size)
    : Fix.isBlockStatement (tree.withVariable call receiver block index name typeName) id
      = Fix.isBlockStatement tree id := by
  obtain ⟨_, ⟨isVariable, _⟩, _⟩ :=
    introduces.new_nodes linked index name typeName
  rw [isBlockStatement_eq, isBlockStatement_eq, introduces.kind?_of_lt linked old,
    introduces.parent? linked old]
  split
  · next same =>
      rw [same, introduces.below linked, Option.bind_some, Option.bind_some, isVariable, isCall]
      exact (Bool.and_false _).trans (Bool.and_false _).symm
  · cases up : tree.parent? id with
    | none => rw [Option.bind_none, Option.bind_none]
    | some upper =>
        rw [Option.bind_some, Option.bind_some,
          introduces.kind?_of_lt linked (linked.parent_lt up)]

/-- Every old node is in the block that it was in: the receiver is in that of the call, the block of
the new declaration. By induction on the level.
-/
theorem blockAround?_old (introduces : tree.Introduces call receiver block)
    (linked : tree.Linked)
    (afterLinked : (tree.withVariable call receiver block index name typeName).Linked)
    (isCall : tree.kind? call = some .methodCall) (inBlock : tree.blockAround? call = some block)
    {id : NodeId} (old : id < tree.size)
    : (tree.withVariable call receiver block index name typeName).blockAround? id
      = tree.blockAround? id := by
  obtain ⟨⟨isDeclaration, declarationUp⟩, ⟨isVariable, variableUp, _⟩, _⟩ :=
    introduces.new_nodes linked index name typeName
  have callNone : Fix.isBlockStatement tree call = false := by
    rw [isBlockStatement_eq, isCall]
    rfl
  have variableNone
      : Fix.isBlockStatement (tree.withVariable call receiver block index name typeName)
          (tree.size + 1)
        = false := by
    rw [isBlockStatement_eq, isVariable]
    rfl
  have statement
      : Fix.isBlockStatement (tree.withVariable call receiver block index name typeName) tree.size
        = true := by
    rw [isBlockStatement_eq, isDeclaration, declarationUp, Option.bind_some,
      introduces.kind?_of_lt linked (introduces.blockOld linked), introduces.isBlock]
    rfl
  induction least : tree.level id using Nat.strong_induction_on generalizing id with
  | _ bound ih =>
      have up
          : (tree.withVariable call receiver block index name typeName).parent? id
            = if id = receiver then some (tree.size + 1) else tree.parent? id :=
        introduces.parent? linked old
      by_cases isReceiver : id = receiver
      · rw [if_pos isReceiver] at up
        rw [afterLinked.blockAround?_of_parent up, afterLinked.blockAround?_of_parent variableUp,
          variableNone, statement, declarationUp, isReceiver,
          linked.blockAround?_of_parent (introduces.below linked), callNone, inBlock,
          if_neg Bool.false_ne_true, if_neg Bool.false_ne_true, if_pos rfl]
      · rw [if_neg isReceiver] at up
        cases hangs : tree.parent? id with
        | none =>
            rw [linked.blockAround?_of_top hangs, afterLinked.blockAround?_of_top (up.trans hangs)]
        | some upper =>
            have upperOld := linked.parent_lt hangs
            rw [linked.blockAround?_of_parent hangs,
              afterLinked.blockAround?_of_parent (up.trans hangs),
              introduces.isBlockStatement_old linked isCall upperOld,
              introduces.parent? linked upperOld]
            split
            · next statement =>
                refine if_neg fun same => ?_
                rw [same, isBlockStatement_eq, introduces.below linked, Option.bind_some, isCall,
                  Option.any_some, Bool.and_eq_true] at statement
                exact Bool.noConfusion statement.2
            · refine ih (tree.level upper) ?_ upperOld rfl
              rw [← least, linked.level_of_parent hangs]
              exact Nat.lt_succ_self _

/-- No receiver but that of the call is another one, and what the receiver of the call is now makes
no name.
-/
theorem receiverName_old (introduces : tree.Introduces call receiver block)
    (linked : tree.Linked)
    (afterLinked : (tree.withVariable call receiver block index name typeName).Linked)
    (isCall : tree.kind? call = some .methodCall) {other : NodeId}
    (isOther : tree.kind? other = some .methodCall)
    : (tree.withVariable call receiver block index name typeName).receiverName other
      = if other = call then "value" else tree.receiverName other := by
  have old := lt_size_of_kind? isOther
  have grows : tree.size ≤ (tree.withVariable call receiver block index name typeName).size :=
    (introduces.frame linked).grows
  split
  · next same =>
      rw [same] at old ⊢
      obtain ⟨_, _, isReference, _⟩ :=
        introduces.new_nodes linked index name typeName
      obtain ⟨found, shown⟩ := afterLinked.subtree?_exists (Nat.lt_of_lt_of_le old grows)
      obtain rfl := subtree?_id shown
      have first
          : (tree.withVariable found.id receiver block index name typeName).childAt? found.id
              .qualifier
            = some (tree.size + 2) :=
        introduces.receiver_again linked
      rw [← childWithRole?_id shown, Option.map_eq_some_iff] at first
      obtain ⟨reference, isFirst, number⟩ := first
      have inside := (subtree?_of_mem_children shown (List.mem_of_find?_eq_some isFirst)).1
      have kind := kind?_of_shown inside
      rw [number, isReference, Option.some.injEq] at kind
      rw [receiverName, shown, Option.bind_some, isFirst, Option.elim_some,
        Subtree.stripParentheses_of_ne (by rw [← kind]; decide), Fix.variableName, ← kind]
  · next apart =>
      refine receiverName_alike linked afterLinked old grows ?_
        (fun _ => introduces.kind?_of_lt linked) (fun _ => introduces.name?_of_lt linked) ?_
      · have notBlock : other ≠ block := by
          rintro rfl
          exact absurd (isOther.symm.trans introduces.isBlock) (by decide)
        refine childAt?_congr ?_ fun child member => ?_
        · rw [introduces.childIds linked old, if_neg apart, if_neg notBlock]
        · have notReceiver : child ≠ receiver := by
            rintro rfl
            exact apart (Option.some.inj
              ((linked.agree.mp member).symm.trans (introduces.below linked)))
          rw [introduces.content? linked (linked.child_lt member), if_neg notReceiver]
      · intro id isParenthesized
        rw [introduces.childIds_other linked isCall isParenthesized (by decide)]

/-- The parameters around the block of the new declaration stay: nothing changes above the block. -/
theorem parametersAround_block (introduces : tree.Introduces call receiver block)
    (linked : tree.Linked)
    (afterLinked : (tree.withVariable call receiver block index name typeName).Linked)
    (isCall : tree.kind? call = some .methodCall)
    : (tree.withVariable call receiver block index name typeName).parametersAround block
      = tree.parametersAround block := by
  have higher {upper : NodeId} (way : ReflTransGen tree.IsParent upper block)
      : upper < tree.size ∧ upper ≠ receiver := by
    have above : tree.Above upper receiver :=
      TransGen.trans_right way (introduces.around.tail (introduces.below linked))
    exact ⟨(linked.above_lt above).1, fun same => linked.acyclic _ (same ▸ above)⟩
  have sameWay : (tree.withVariable call receiver block index name typeName).ancestors block
      = tree.ancestors block :=
    linked.ancestors_congr afterLinked fun upper way => by
      rw [introduces.parent? linked (higher way).1, if_neg (higher way).2]
  have sameMethods
      : (tree.ancestors block).find?
            (tree.withVariable call receiver block index name typeName).isMethodAt
        = (tree.ancestors block).find? tree.isMethodAt :=
    List.find?_congr fun upper member => by
      have way := (linked.mem_ancestors.mp member).to_reflTransGen
      rw [isMethodAt, isMethodAt, introduces.kind?_of_lt linked (higher way).1]
  rw [parametersAround, parametersAround, sameWay, sameMethods]
  cases found : (tree.ancestors block).find? tree.isMethodAt with
  | none => rw [Option.elim_none, Option.elim_none]
  | some method =>
      have passes := List.find?_some found
      have isMethod : tree.kind? method = some .method := eq_of_beq passes
      rw [Option.elim_some, Option.elim_some,
        introduces.childIds_other linked isCall isMethod (by decide)]
      exact List.filter_congr fun child member => by
        rw [introduces.kind?_of_lt linked (linked.child_lt member)]

/-- The new variable has a name of its own exactly if neither a variable that the block declared
before nor a parameter around has the name.
-/
theorem namedApart_iff (introduces : tree.Introduces call receiver block) (linked : tree.Linked)
    (afterLinked : (tree.withVariable call receiver block index name typeName).Linked)
    (isCall : tree.kind? call = some .methodCall)
    : (tree.withVariable call receiver block index name typeName).NamedApart block (tree.size + 1)
      ↔ name ∉ tree.localNames block
        ∧ ∀ parameter ∈ tree.parametersAround block, tree.name? parameter ≠ some name := by
  obtain ⟨_, ⟨_, _, named⟩, _⟩ :=
    introduces.new_nodes linked index name typeName
  have blockOld := introduces.blockOld linked
  have blockCall := (introduces.distinct linked).2.2.symm
  have parameterOld {parameter : NodeId} (among : parameter ∈ tree.parametersAround block)
      : parameter < tree.size := by
    rw [parametersAround] at among
    cases found : (tree.ancestors block).find? tree.isMethodAt with
    | none =>
        rw [found] at among
        exact absurd among List.not_mem_nil
    | some method =>
        rw [found] at among
        exact linked.child_lt (List.mem_of_mem_filter among)
  constructor
  · rintro ⟨locals, parameters⟩
    rw [introduces.parametersAround_block linked afterLinked isCall] at parameters
    constructor
    · intro among
      obtain ⟨other, declared, isName⟩ := List.mem_filterMap.mp among
      obtain ⟨_, _, _, _, isVariable⟩ := linked.mem_localsOf.mp declared
      have old := lt_size_of_kind? isVariable
      refine locals other ?_ (Nat.ne_of_lt (Nat.lt_succ_of_lt old)) ?_
      · exact (introduces.mem_localsOf linked isCall blockOld blockCall).mpr (.inl declared)
      · rw [introduces.name?_of_lt linked old, isName, named]
    · intro parameter among
      rw [← introduces.name?_of_lt linked (parameterOld among), ← named]
      exact parameters parameter among
  · rintro ⟨fresh, parameters⟩
    constructor
    · intro other declared apart same
      rcases (introduces.mem_localsOf linked isCall blockOld blockCall).mp declared with
        before | ⟨_, isNew⟩
      · obtain ⟨_, _, _, _, isVariable⟩ := linked.mem_localsOf.mp before
        rw [introduces.name?_of_lt linked (lt_size_of_kind? isVariable), named] at same
        exact fresh (List.mem_filterMap.mpr ⟨other, before, same⟩)
      · exact apart isNew
    · intro parameter among
      rw [introduces.parametersAround_block linked afterLinked isCall] at among
      rw [introduces.name?_of_lt linked (parameterOld among), named]
      exact parameters parameter among

end Introduces

end Tree

/-- The fix declares the variable in the block around the call, under the name that is made for the
receiver.
-/
theorem Fix.introduceVariable_names (coherent : tree.Coherent) {anchor : NodeId}
    (succeeded : (introduceVariable.applyAt anchor).apply tree = (.ok (), after))
    : ∃ receiver statement block typeName,
        tree.subtree? receiver.id = some receiver
        ∧ tree.parent? statement = some block
        ∧ tree.blockAround? anchor = some block
        ∧ tree.Introduces anchor receiver.id block
        ∧ after
          = tree.withVariable anchor receiver.id block ((tree.indexInParent? statement).getD 0)
              (tree.receiverName anchor) typeName := by
  obtain ⟨receiver, statement, block, isReceiver, nearest, inBlock, introduces, same⟩ :=
    introduceVariable_moves coherent succeeded
  obtain ⟨call, shown, isFirst⟩ := Option.bind_eq_some_iff.mp isReceiver
  obtain rfl := Tree.subtree?_id shown
  refine ⟨receiver, statement, block, receiver.typeName?.getD "var", ?_, inBlock, ?_, introduces, ?_⟩
  · exact (Tree.subtree?_of_mem_children shown (List.mem_of_find?_eq_some isFirst)).1
  · rw [Tree.blockAround?, nearest, Option.bind_some, inBlock]
  · rw [same, Tree.receiverName, isReceiver, Option.elim_some]

namespace Tree

-----------------------------------------------------------------------------------------
-- One variable after another
-----------------------------------------------------------------------------------------

/-- What holds after variables were introduced at calls, as far as names are concerned. -/
structure NamesAdded (tree : Tree) (calls : List NodeId) (before : Tree) : Prop where
  coherent : before.Coherent
  grows : tree.size ≤ before.size
  attached : ∀ id, tree.Attached id → before.Attached id
  kinds : ∀ id < tree.size, before.kind? id = tree.kind? id
  /-- The calls and the blocks are those that there were. -/
  old
    : ∀ id, ∀ kind ∈ [NodeKind.methodCall, .codeBlock],
        before.kind? id = some kind → id < tree.size
  blocks : ∀ id < tree.size, before.blockAround? id = tree.blockAround? id
  receivers
    : ∀ call,
        tree.kind? call = some .methodCall → before.receiverName call = tree.givenName calls call
  names
    : ∀ block name,
        tree.kind? block = some .codeBlock
        → (name ∈ before.localNames block
            ↔ name ∈ tree.localNames block ∨ name ∈ tree.namesGiven block calls)

theorem NamesAdded.start (coherent : tree.Coherent) : tree.NamesAdded [] tree where
  coherent := coherent
  grows := Nat.le_refl _
  attached _ attached := attached
  kinds _ _ := rfl
  old _ _ _ isKind := lt_size_of_kind? isKind
  blocks _ _ := rfl
  receivers call _ := by rw [givenName, if_neg List.not_mem_nil]
  names block name _ := by rw [namesGiven, or_iff_left List.not_mem_nil]

/-- What one more variable adds. -/
theorem NamesAdded.next {calls : List NodeId} {before : Tree} {call : NodeId}
    (added : tree.NamesAdded calls before) (isCall : before.kind? call = some .methodCall)
    (succeeded : (Fix.introduceVariable.applyAt call).apply before = (.ok (), after))
    : tree.NamesAdded (call :: calls) after := by
  have coherent := added.coherent
  have linked := coherent.toLinked
  have afterCoherent := Fix.coherent_of_applyAt coherent succeeded
  have afterLinked := afterCoherent.toLinked
  have pruned := Fix.introduceVariable_pruned coherent succeeded
  have callOld := added.old call .methodCall (by decide) isCall
  have wasCall := (added.kinds call callOld).symm.trans isCall
  obtain ⟨receiver, statement, block, typeName, _, _, around, introduces, rfl⟩ :=
    Fix.introduceVariable_names coherent succeeded
  have wider {id : NodeId} (old : id < tree.size) : id < before.size :=
    Nat.lt_of_lt_of_le old added.grows
  constructor
  · exact afterCoherent
  · exact Nat.le_trans added.grows (introduces.frame linked).grows
  · exact fun id attached =>
      pruned.attached_after coherent (added.attached id attached) not_false
  · intro id old
    rw [introduces.kind?_of_lt linked (wider old), added.kinds id old]
  · intro id kind among isKind
    by_cases old : id < before.size
    · rw [introduces.kind?_of_lt linked old] at isKind
      exact added.old id kind among isKind
    · rcases introduces.among_new linked old isKind with ⟨_, rfl⟩ | ⟨_, rfl⟩ | ⟨_, rfl⟩ <;>
        exact absurd among (by decide)
  · intro id old
    rw [introduces.blockAround?_old linked afterLinked isCall around (wider old),
      added.blocks id old]
  · intro other isOther
    have still := (added.kinds other (lt_size_of_kind? isOther)).trans isOther
    rw [introduces.receiverName_old linked afterLinked isCall still, added.receivers other isOther,
      givenName, givenName]
    by_cases same : other = call <;> simp [same]
  · intro other name isBlock
    have old := lt_size_of_kind? isBlock
    have notCall : other ≠ call := by
      rintro rfl
      exact absurd (isBlock.symm.trans wasCall) (by decide)
    rw [introduces.mem_localNames linked isCall (wider old) notCall, added.names other name isBlock,
      added.receivers call wasCall, or_assoc, namesGiven, ← added.blocks call callOld, around]
    refine or_congr_right ?_
    by_cases same : other = block
    · rw [if_pos (congrArg some same.symm), List.mem_cons, and_iff_right same, or_comm]
    · rw [if_neg fun other => same (Option.some.inj other).symm, or_iff_left fun both => same both.1]

/-- By induction on the variables that were introduced. -/
theorem Introduced.namesAdded {calls : List NodeId} {before : Tree} (coherent : tree.Coherent)
    (earlier : tree.Introduced calls before)
    : tree.NamesAdded calls before := by
  induction earlier with
  | start => exact .start coherent
  | next _ isCall succeeded ih => exact ih.next isCall succeeded

end Tree

/-- The fix of a reported chain, applied after any others of this sort, gives the new variable a name
of its own exactly if the name was neither in use nor given before in the block of the call, and is
not that of a parameter around.
-/
theorem Rule.introducesFresh_iff {ignoreFields : Bool} {tree before after : Tree}
    (reachable : tree.Reachable) {options : PassOptions} {flag : Option CancelFlag}
    {diagnostic : Diagnostic}
    (reported
      : diagnostic
        ∈ (Inspection.inspectTree (chainedMethodCall ignoreFields) tree options flag).reported)
    {calls : List NodeId} (earlier : tree.Introduced calls before)
    (succeeded : diagnostic.applyFix.apply before = (.ok (), after))
    : ∃ receiver statement block typeName,
        tree.blockAround? diagnostic.anchor = some block
        ∧ before.Hoisted diagnostic.anchor receiver statement block
            (tree.givenName calls diagnostic.anchor) typeName after
        ∧ (after.NamedApart block (before.size + 1)
            ↔ tree.givenName calls diagnostic.anchor ∉ tree.localNames block
              ∧ tree.givenName calls diagnostic.anchor ∉ tree.namesGiven block calls
              ∧ ∀ parameter ∈ before.parametersAround block,
                  before.name? parameter ≠ some (tree.givenName calls diagnostic.anchor)) := by
  have treeLinked := reachable.coherent.toLinked
  obtain ⟨attached, _, call, callShown, isCall, _⟩ :=
    hasProblem_of_reported (.chains ignoreFields) reachable.coherent reported
  have added := earlier.namesAdded reachable.coherent
  have coherent := added.coherent
  have linked := coherent.toLinked
  obtain ⟨fix, isFix, applied⟩ := applyFix_reported treeLinked reported succeeded
  cases isFix
  have afterCoherent := Fix.coherent_of_applyAt coherent applied
  have callId := Tree.subtree?_id callShown
  have wasCall : tree.kind? diagnostic.anchor = some .methodCall := by
    rw [← callId] at callShown ⊢
    exact (Tree.kind?_of_shown callShown).trans (congrArg some isCall.1)
  have old := Tree.lt_size_of_kind? wasCall
  have stillCall := (added.kinds _ old).trans wasCall
  obtain ⟨receiver, statement, block, typeName, shown, inBlock, around, introduces, rfl⟩ :=
    Fix.introduceVariable_names coherent applied
  have wasBlock : tree.kind? block = some .codeBlock := by
    rw [← added.kinds _ (added.old _ _ (by decide) introduces.isBlock), introduces.isBlock]
  have hoisted := introduces.hoisted coherent shown inBlock
    (added.attached _ (reachable.coherent.attached_iff.mpr attached)) afterCoherent
  have apart := introduces.namedApart_iff linked afterCoherent.toLinked stillCall
  rw [← added.receivers _ wasCall]
  refine ⟨receiver, statement, block, typeName, ?_, hoisted, ?_⟩
  · rw [← added.blocks _ old, around]
  · rw [apart, added.names _ _ wasBlock, not_or, and_assoc]

/-- A file with two statements that call a method on what the same call gives. -/
def chainTwice : Document where
  root :=
    Outline.file.withChild <| (Outline.namedClass "A").withChild <|
      (Outline.method "m").withChild <|
        (Outline.codeBlock.withChild
          (Outline.expressionStatement
            (Outline.call "c"
              (some (Outline.call "b" (some (Outline.referenceExpression "a"))))))).withChild
          (Outline.expressionStatement
            (Outline.call "d"
              (some (Outline.call "b" (some (Outline.referenceExpression "a"))))))

/-- The file with a variable for the receiver in the second statement. -/
def chainTwiceBegun : Tree :=
  ((Fix.introduceVariable.applyAt 9).apply (.ofDocument chainTwice)).2

/-- The file with a variable for the receiver in each statement. -/
def chainTwiceFixed : Tree :=
  ((Fix.introduceVariable.applyAt 5).apply chainTwiceBegun).2

theorem chainTwice_begun : (Tree.ofDocument chainTwice).Introduced [9] chainTwiceBegun :=
  .next .start (by decide +kernel) (Prod.ext (by decide +kernel) rfl)

/-- The chain in the first statement is reported, and its fix can be applied after that of the other.
-/
theorem chainTwice_applied
    : ∃ diagnostic ∈ reportedChains chainTwice,
        diagnostic.anchor = 5
        ∧ diagnostic.applyFix.apply chainTwiceBegun = (.ok (), chainTwiceFixed) := by
  obtain ⟨diagnostic, reported, isAnchor, applies⟩ :=
    @reportedChains_offered chainTwice 5 (by decide +kernel)
  refine ⟨diagnostic, reported, isAnchor, ?_⟩
  rw [applies]
  exact Prod.ext (by decide +kernel) rfl

/-- Both variables have the name `b`. -/
theorem chainTwice_alike
    : (Tree.ofDocument chainTwice).Introduced [9] chainTwiceBegun
      ∧ (∃ diagnostic ∈ reportedChains chainTwice,
          diagnostic.applyFix.apply chainTwiceBegun = (.ok (), chainTwiceFixed))
      ∧ chainTwiceFixed.localsOf 3 = [16, 13]
      ∧ chainTwiceFixed.name? 13 = some "b"
      ∧ ¬chainTwiceFixed.NamedApart 3 16 := by
  obtain ⟨diagnostic, reported, _, applied⟩ := chainTwice_applied
  refine ⟨chainTwice_begun, ⟨diagnostic, reported, applied⟩, by decide +kernel, by decide +kernel,
    fun apart => ?_⟩
  exact apart.locals 13 (by decide +kernel) (by decide) (by decide +kernel)

/-- The fix gave the name before, and no other variable and no parameter has it. -/
theorem chainTwice_given
    : ∃ diagnostic ∈ reportedChains chainTwice,
        diagnostic.applyFix.apply chainTwiceBegun = (.ok (), chainTwiceFixed)
        ∧ "b" ∈ (Tree.ofDocument chainTwice).namesGiven 3 [9]
        ∧ ¬chainTwiceFixed.NamedApart 3 (chainTwiceBegun.size + 1) := by
  obtain ⟨diagnostic, reported, isAnchor, applied⟩ := chainTwice_applied
  obtain ⟨_, _, block, _, around, _, fresh⟩ :=
    Rule.introducesFresh_iff (.loaded chainTwice) reported chainTwice_begun applied
  have isBlock : (Tree.ofDocument chainTwice).blockAround? 5 = some 3 := by decide +kernel
  have given : "b" ∈ (Tree.ofDocument chainTwice).namesGiven 3 [9] := by decide +kernel
  have isName : (Tree.ofDocument chainTwice).givenName [9] 5 = "b" := by decide +kernel
  rw [isAnchor] at around fresh
  cases isBlock.symm.trans around
  exact ⟨diagnostic, reported, applied, given, fun apart =>
    (fresh.mp apart).2.1 (isName ▸ given)⟩

end TreeLint
