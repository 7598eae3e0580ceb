import TreeLint.Proofs.Rule.Diagnostics

/-! What decides whether and how often a node is evaluated, and what a variable for the receiver
of a call does to that. A loop may run what is below it many times or never, an operator `&&` or
`||` may leave out its right operand, and an `if` runs one of its branches. Main result: the
receiver gets the guards of the statement before which its variable is declared. It keeps its own
exactly if the way from that statement to the call meets no guard, which is so exactly if every
guard of the call has a statement of a block inside.
-/

namespace TreeLint

open Relation

-----------------------------------------------------------------------------------------
-- Guards
-----------------------------------------------------------------------------------------

namespace Tree

/-- The second node is the right operand of an operator `&&` or `||` that the first one is. -/
structure RightOperandOf (tree : Tree) (upper lower : NodeId) : Prop where
  link : tree.parent? lower = some upper
  isLogical
    : ∃ content,
        tree.content? upper = some content
        ∧ content.kind = .binaryExpression
        ∧ content.facts.operator ∈ [some .logicalAnd, some .logicalOr]
  isRight : ∃ content, tree.content? lower = some content ∧ content.role = .rhs

/-- The second node is the body or the else branch of an `if` that the first one is. A code block
is the body also where no role says so.
-/
structure BranchOf (tree : Tree) (upper lower : NodeId) : Prop where
  link : tree.parent? lower = some upper
  isChoice : tree.kind? upper = some .ifStatement
  isBranch
    : ∃ content,
        tree.content? lower = some content
        ∧ (content.role ∈ [.body, .otherwise] ∨ content.kind = .codeBlock)

/-- The node is a loop. -/
def LoopAt (tree : Tree) (id : NodeId) : Prop :=
  ∃ kind, tree.kind? id = some kind ∧ kind.isLoop = true

/-- The first node may decide whether or how often the second one, right below it, is evaluated. A
loop is taken to do so for each of its parts.
-/
inductive Guards (tree : Tree) (upper lower : NodeId) : Prop where
  | loop (link : tree.parent? lower = some upper) (isLoop : tree.LoopAt upper)
  | operand (right : tree.RightOperandOf upper lower)
  | branch (branch : tree.BranchOf upper lower)

/-- The guards of a node at whatever distance, each with its child on the way to the node. -/
def guardsOf (tree : Tree) (id : NodeId) : Set (NodeId × NodeId) :=
  { guard | tree.Guards guard.1 guard.2 ∧ ReflTransGen tree.IsParent guard.2 id }

/-- The way from a node down to another one meets no loop, enters no right operand of `&&` or `||`
and no branch of an `if`.
-/
structure WayUnguarded (tree : Tree) (top bottom : NodeId) : Prop where
  noLoop
    : ∀ id,
        ReflTransGen tree.IsParent top id → ReflTransGen tree.IsParent id bottom → ¬tree.LoopAt id
  noRightOperand
    : ∀ upper lower,
        ReflTransGen tree.IsParent top upper
        → ReflTransGen tree.IsParent lower bottom
        → ¬tree.RightOperandOf upper lower
  noBranch
    : ∀ upper lower,
        ReflTransGen tree.IsParent top upper
        → ReflTransGen tree.IsParent lower bottom
        → ¬tree.BranchOf upper lower

variable {tree after : Tree} {upper lower : NodeId}

/-- A guard is right above what it guards. -/
theorem Guards.link (guards : tree.Guards upper lower) : tree.IsParent upper lower := by
  cases guards with
  | loop link _ => exact link
  | operand right => exact right.link
  | branch branch => exact branch.link

/-- Loops, operators and choices are the only nodes that guard something. -/
theorem Guards.kind (guards : tree.Guards upper lower) {kind : NodeKind}
    (isKind : tree.kind? upper = some kind)
    : kind.isLoop = true ∨ kind ∈ [.binaryExpression, .ifStatement] := by
  cases guards with
  | loop _ isLoop =>
      obtain ⟨_, known, isLoop⟩ := isLoop
      exact .inl (Option.some.inj (known.symm.trans isKind) ▸ isLoop)
  | operand right =>
      obtain ⟨_, known, isBinary, _⟩ := right.isLogical
      rw [kind?_eq_some_iff.mpr ⟨_, known, isBinary⟩] at isKind
      exact .inr (Option.some.inj isKind ▸ List.mem_cons_self)
  | branch branch =>
      rw [branch.isChoice] at isKind
      exact .inr (Option.some.inj isKind ▸ List.mem_cons_of_mem _ List.mem_cons_self)

/-- Guarding is a matter of one link and of what its two ends say. -/
theorem Guards.congr (guards : tree.Guards upper lower)
    (link : after.parent? lower = tree.parent? lower)
    (above : after.content? upper = tree.content? upper)
    (below : after.content? lower = tree.content? lower)
    : after.Guards upper lower := by
  have kind : after.kind? upper = tree.kind? upper := by rw [kind?, kind?, above]
  cases guards with
  | loop up isLoop =>
      obtain ⟨kind', known, isLoop⟩ := isLoop
      exact .loop (link.trans up) ⟨kind', kind.trans known, isLoop⟩
  | operand right =>
      exact .operand ⟨link.trans right.link, above ▸ right.isLogical, below ▸ right.isRight⟩
  | branch branch =>
      exact .branch ⟨link.trans branch.link, kind.trans branch.isChoice, below ▸ branch.isBranch⟩

/-- A node has the guards of its parent, if that is none itself. -/
theorem guardsOf_of_link (link : tree.parent? lower = some upper)
    (free : ¬tree.Guards upper lower)
    : tree.guardsOf lower = tree.guardsOf upper := by
  ext ⟨guard, inner⟩
  refine and_congr_right fun guards => ⟨fun way => ?_, fun way => way.tail link⟩
  rcases ReflTransGen.cases_tail way with same | ⟨parent, higher, last⟩
  · subst same
    cases guards.link.symm.trans link
    exact absurd guards free
  · cases last.symm.trans link
    exact higher

/-- The guards of a node stay if nothing changes at it and above it. -/
theorem guardsOf_congr {id : NodeId}
    (same
      : ∀ upper,
          ReflTransGen tree.IsParent upper id
          → after.parent? upper = tree.parent? upper ∧ after.content? upper = tree.content? upper)
    : after.guardsOf id = tree.guardsOf id := by
  have ways (upper : NodeId)
      : ReflTransGen after.IsParent upper id ↔ ReflTransGen tree.IsParent upper id := by
    constructor
    · intro way
      induction way using ReflTransGen.head_induction_on with
      | refl => exact .refl
      | head link _ ih => exact .head ((same _ ih).1.symm.trans link) ih
    · intro way
      induction way using ReflTransGen.head_induction_on with
      | refl => exact .refl
      | head link rest ih => exact .head ((same _ rest).1.trans link) ih
  ext ⟨guard, inner⟩
  simp only [guardsOf, Set.mem_ofPred_eq, ways]
  refine and_congr_left fun way => ?_
  obtain ⟨link, below⟩ := same inner way
  constructor
  · intro guards
    have above := (same guard (.head (link.symm.trans guards.link) way)).2
    exact guards.congr link.symm above.symm below.symm
  · intro guards
    exact guards.congr link (same guard (.head guards.link way)).2 below

/-- What is below a strict descendant of a node is not above the node. -/
theorem Linked.not_below_self (linked : tree.Linked) {top : NodeId}
    (down : ReflTransGen tree.IsParent top upper) (link : tree.IsParent upper lower)
    : ¬ReflTransGen tree.IsParent lower top := fun back =>
  linked.acyclic top (TransGen.trans_left (TransGen.tail' down link) back)

/-- Two nodes on one way have the same guards exactly if there is none between them. -/
theorem Linked.guardsOf_eq_iff (linked : tree.Linked) {top bottom : NodeId}
    (way : ReflTransGen tree.IsParent top bottom)
    : tree.guardsOf bottom = tree.guardsOf top
      ↔ ∀ upper lower,
          ReflTransGen tree.IsParent top upper
          → ReflTransGen tree.IsParent lower bottom
          → ¬tree.Guards upper lower := by
  constructor
  · intro same upper lower down inside guards
    have member : (upper, lower) ∈ tree.guardsOf bottom := ⟨guards, inside⟩
    rw [same] at member
    exact linked.not_below_self down guards.link member.2
  · intro free
    ext ⟨upper, lower⟩
    refine and_congr_right fun guards => ⟨fun inside => ?_, fun higher => higher.trans way⟩
    rcases above_comparable inside way with higher | lower'
    · exact higher
    · rcases ReflTransGen.cases_tail lower' with same | ⟨parent, down, last⟩
      · exact same ▸ .refl
      · cases last.symm.trans guards.link
        exact absurd guards (free upper lower down inside)

/-- A way is unguarded exactly if no node of it guards the next one. -/
theorem wayUnguarded_iff {top bottom : NodeId} (plain : ¬tree.LoopAt bottom)
    : tree.WayUnguarded top bottom
      ↔ ∀ upper lower,
          ReflTransGen tree.IsParent top upper
          → ReflTransGen tree.IsParent lower bottom
          → ¬tree.Guards upper lower := by
  constructor
  · intro unguarded upper lower down inside guards
    cases guards with
    | loop link isLoop => exact unguarded.noLoop upper down (.head link inside) isLoop
    | operand right => exact unguarded.noRightOperand upper lower down inside right
    | branch branch => exact unguarded.noBranch upper lower down inside branch
  · intro free
    refine ⟨fun id down inside isLoop => ?_, fun upper lower down inside right => ?_,
      fun upper lower down inside branch => ?_⟩
    · rcases ReflTransGen.cases_head inside with same | ⟨next, link, rest⟩
      · exact plain (same ▸ isLoop)
      · exact free id next down rest (.loop link isLoop)
    · exact free upper lower down inside (.operand right)
    · exact free upper lower down inside (.branch branch)

/-- The way to a node from the nearest one above that passes a test meets no guard exactly if each
guard of the node has something inside, above the node, that passes the test.
-/
theorem Linked.noGuards_iff (linked : tree.Linked) {test : NodeId → Bool} {top bottom : NodeId}
    (nearest : tree.Nearest test top bottom)
    : (∀ upper lower,
        ReflTransGen tree.IsParent top upper
        → ReflTransGen tree.IsParent lower bottom
        → ¬tree.Guards upper lower)
      ↔ ∀ guard ∈ tree.guardsOf bottom, ∃ inner,
          test inner = true
          ∧ ReflTransGen tree.IsParent guard.2 inner
          ∧ tree.Above inner bottom := by
  constructor
  · rintro free ⟨upper, lower⟩ ⟨guards, inside⟩
    refine ⟨top, nearest.passes, ?_, nearest.above⟩
    rcases above_comparable inside nearest.above.to_reflTransGen with higher | down
    · exact higher
    · rcases ReflTransGen.cases_tail down with same | ⟨parent, rest, last⟩
      · exact same ▸ .refl
      · cases last.symm.trans guards.link
        exact absurd guards (free upper lower rest inside)
  · intro covered upper lower down inside guards
    obtain ⟨inner, passes, between, above⟩ := covered (upper, lower) ⟨guards, inside⟩
    exact linked.not_below_self down guards.link
      (between.trans (nearest.highest inner above passes))

-----------------------------------------------------------------------------------------
-- The guards of a hoisted receiver
-----------------------------------------------------------------------------------------

variable {call statement block : NodeId} {receiver : Subtree} {name typeName : String}

/-- A node of a kind that guards nothing leaves its children the guards that it has itself. -/
theorem guardsOf_of_kind {kind : NodeKind} (link : tree.parent? lower = some upper)
    (isKind : tree.kind? upper = some kind) (noLoop : kind.isLoop = false)
    (other : kind ∉ [.binaryExpression, .ifStatement])
    : tree.guardsOf lower = tree.guardsOf upper := by
  refine guardsOf_of_link link fun guards => ?_
  rcases guards.kind isKind with isLoop | among
  · exact absurd isLoop (by rw [noLoop]; exact Bool.false_ne_true)
  · exact other among

/-- A hoisted receiver has the guards of the statement before which its variable is declared: the
three nodes on the way to it from the block guard nothing, and nothing else changes above.
-/
theorem Hoisted.guardsOf_receiver
    (hoisted : tree.Hoisted call receiver statement block name typeName after)
    (linked : tree.Linked) (afterLinked : after.Linked)
    (inBlock : tree.parent? statement = some block)
    (isBlock : tree.kind? block = some .codeBlock) (around : tree.Above block receiver.id)
    : after.guardsOf receiver.id = tree.guardsOf statement := by
  have variableKind : after.kind? (tree.size + 1) = some .localVariable := by
    rw [kind?, content?, hoisted.declared]
    rfl
  have variableParent : after.parent? (tree.size + 1) = some tree.size := by
    rw [parent?, hoisted.declared, Option.bind_some]
  have declarationKind : after.kind? tree.size = some .declarationStatement := by
    rw [kind?, content?, hoisted.declaration]
    rfl
  have blockKind := (hoisted.kind?_block linked around).trans isBlock
  calc after.guardsOf receiver.id
    _ = after.guardsOf (tree.size + 1) :=
      guardsOf_of_kind (hoisted.receiver_parent afterLinked) variableKind rfl (by decide)
    _ = after.guardsOf tree.size :=
      guardsOf_of_kind variableParent declarationKind rfl (by decide)
    _ = after.guardsOf block :=
      guardsOf_of_kind hoisted.declaration_parent blockKind rfl (by decide)
    _ = tree.guardsOf block := guardsOf_congr fun _ way => hoisted.unmoved linked around way
    _ = tree.guardsOf statement := (guardsOf_of_kind inBlock isBlock rfl (by decide)).symm

end Tree

/-- The fix of a reported chain gives the receiver of the call the guards of the nearest statement
of a block around the call. They are the guards that the receiver had exactly if the way from that
statement down to the call is unguarded, which is so exactly if within each guard of the call
there is a statement of a block around the call.
-/
theorem Rule.keepsGuards_iff {ignoreFields : Bool} {tree after : Tree}
    (reachable : tree.Reachable) {options : PassOptions} {flag : Option CancelFlag}
    {diagnostic : Diagnostic}
    (reported
      : diagnostic
        ∈ (Inspection.inspectTree (chainedMethodCall ignoreFields) tree options flag).reported)
    (succeeded : diagnostic.applyFix.apply tree = (.ok (), after))
    : ∃ receiver statement block,
        tree.childAt? diagnostic.anchor .qualifier = some receiver.id
        ∧ tree.Nearest (Fix.isBlockStatement tree) statement diagnostic.anchor
        ∧ tree.Hoisted diagnostic.anchor receiver statement block
            (Fix.variableName receiver.stripParentheses) (receiver.typeName?.getD "var") after
        ∧ after.guardsOf receiver.id = tree.guardsOf statement
        ∧ (tree.WayUnguarded statement diagnostic.anchor
            ↔ after.guardsOf receiver.id = tree.guardsOf receiver.id)
        ∧ (tree.WayUnguarded statement diagnostic.anchor
            ↔ ∀ guard ∈ tree.guardsOf diagnostic.anchor, ∃ inner,
                Fix.isBlockStatement tree inner = true
                ∧ ReflTransGen tree.IsParent guard.2 inner
                ∧ tree.Above inner diagnostic.anchor) := by
  have linked := reachable.coherent.toLinked
  obtain ⟨receiver, statement, block, isCall, nearest, inBlock, introduces, hoisted,
    afterCoherent⟩ := chain_hoisted reachable reported succeeded
  have below : tree.IsParent diagnostic.anchor receiver.id := introduces.below linked
  have moved := hoisted.guardsOf_receiver linked afterCoherent.toLinked inBlock
    introduces.isBlock (introduces.around.tail below)
  have before : tree.guardsOf receiver.id = tree.guardsOf diagnostic.anchor :=
    Tree.guardsOf_of_kind below isCall rfl (by decide)
  have plain : ¬tree.LoopAt diagnostic.anchor := by
    rintro ⟨kind, isKind, isLoop⟩
    cases isKind.symm.trans isCall
    exact absurd isLoop (by decide)
  refine ⟨receiver, statement, block, introduces.receiverAt, nearest, hoisted, moved, ?_, ?_⟩
  · rw [moved, before, Tree.wayUnguarded_iff plain, eq_comm]
    exact (linked.guardsOf_eq_iff nearest.above.to_reflTransGen).symm
  · rw [Tree.wayUnguarded_iff plain]
    exact linked.noGuards_iff nearest

/-- A file with an `if` that makes a chained call without braces. -/
def unbracedBranch : Document where
  root :=
    Outline.file.withChild <| (Outline.namedClass "A").withChild <|
      (Outline.method "m").withChild <| Outline.codeBlock.withChild <|
        ((Outline.ofKind .ifStatement).withChild
          ((Outline.referenceExpression "ready").withRole .condition)).withChild
          ((Outline.expressionStatement
            (Outline.call "c"
              (some (Outline.call "b" (some (Outline.referenceExpression "a")))))).withRole .body)

/-- The file with a variable for the receiver. -/
def unbracedBranchFixed : Tree :=
  ((Fix.introduceVariable.applyAt 7).apply (.ofDocument unbracedBranch)).2

/-- The chain is reported, and its fix can be applied. -/
theorem unbracedBranch_applied
    : ∃ diagnostic ∈ reportedChains unbracedBranch,
        diagnostic.anchor = 7
        ∧ diagnostic.applyFix.apply (.ofDocument unbracedBranch)
          = (.ok (), unbracedBranchFixed) :=
  reportedChains_applied (by decide +kernel) (by decide +kernel)

/-- The call is in the branch of the `if`, which is the nearest statement of a block. -/
theorem unbracedBranch_branch
    : (Tree.ofDocument unbracedBranch).BranchOf 4 6
      ∧ (Tree.ofDocument unbracedBranch).IsParent 6 7
      ∧ (Tree.ofDocument unbracedBranch).IsParent 7 8
      ∧ (Tree.ofDocument unbracedBranch).Nearest
          (Fix.isBlockStatement (Tree.ofDocument unbracedBranch)) 4 7 := by
  have link (upper lower : NodeId) (up : (Tree.ofDocument unbracedBranch).parent? lower = upper)
      : (Tree.ofDocument unbracedBranch).IsParent upper lower := up
  have isChoice : (Tree.ofDocument unbracedBranch).kind? 4 = some .ifStatement := by
    decide +kernel
  have isBody : ((Tree.ofDocument unbracedBranch).content? 6).map (·.role) = some .body := by
    decide +kernel
  obtain ⟨content, known, role⟩ := Option.map_eq_some_iff.mp isBody
  have linked := (Tree.ofDocument_coherent unbracedBranch).toLinked
  exact ⟨⟨link 4 6 (by decide +kernel), isChoice, content, known, .inl (by simp [role])⟩,
    link 6 7 (by decide +kernel), link 7 8 (by decide +kernel),
    linked.nearest_of_find? (by decide +kernel)⟩

/-- The variable is declared before the `if`, so the way down to the call enters its branch. -/
theorem unbracedBranch_left
    : ∃ diagnostic ∈ reportedChains unbracedBranch,
        diagnostic.anchor = 7
        ∧ diagnostic.applyFix.apply (Tree.ofDocument unbracedBranch)
          = (.ok (), unbracedBranchFixed)
        ∧ unbracedBranchFixed.childIds 3 = [10, 4]
        ∧ ¬(Tree.ofDocument unbracedBranch).WayUnguarded 4 7 := by
  obtain ⟨diagnostic, reported, anchor, applied⟩ := unbracedBranch_applied
  obtain ⟨branch, last, _⟩ := unbracedBranch_branch
  exact ⟨diagnostic, reported, anchor, applied, by decide +kernel, fun unguarded =>
    unguarded.noBranch 4 6 .refl (.single last) branch⟩

/-- The receiver was evaluated only in the branch, and it loses this guard. -/
theorem unbracedBranch_guard
    : ∃ diagnostic ∈ reportedChains unbracedBranch,
        diagnostic.applyFix.apply (Tree.ofDocument unbracedBranch)
          = (.ok (), unbracedBranchFixed)
        ∧ (4, 6) ∈ (Tree.ofDocument unbracedBranch).guardsOf 8
        ∧ (4, 6) ∉ unbracedBranchFixed.guardsOf 8 := by
  obtain ⟨diagnostic, reported, anchor, applied⟩ := unbracedBranch_applied
  obtain ⟨branch, last, receiverLink, nearest⟩ := unbracedBranch_branch
  have linked := (Tree.ofDocument_coherent unbracedBranch).toLinked
  obtain ⟨receiver, statement, block, receiverAt, nearestToo, _, moved, _⟩ :=
    Rule.keepsGuards_iff (.loaded unbracedBranch) reported applied
  rw [anchor] at receiverAt nearestToo
  have isReceiver : (Tree.ofDocument unbracedBranch).childAt? 7 .qualifier = some 8 := by
    decide +kernel
  cases linked.nearest_unique nearest nearestToo
  rw [Option.some.inj (receiverAt.symm.trans isReceiver)] at moved
  refine ⟨diagnostic, reported, applied,
    ⟨.branch branch, .tail (.single last) receiverLink⟩, fun guarded => ?_⟩
  rw [moved] at guarded
  exact linked.not_below_self .refl branch.link guarded.2

end TreeLint
