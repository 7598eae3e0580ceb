import Mathlib.Data.List.Find
import TreeLint.Proofs.Rule.Diagnostics

/-! Which class a variable for the receiver of a call belongs to. It is the class of the nearest
statement of a block around the call. Main result: this is the class of the call exactly if there
is such a statement inside the class of the call. A call that initializes a field of an anonymous
class has none there, so its receiver leaves the class.
-/

namespace TreeLint

open Relation

namespace Tree

variable {tree after : Tree} {call statement block : NodeId} {receiver : Subtree}
  {name typeName : String}

/-- Where a node that is no class has the parent, the same class is around both. -/
theorem Linked.enclosingClass?_of_link (linked : tree.Linked) {upper lower : NodeId}
    (link : tree.parent? lower = some upper) (noClass : tree.isClassAt upper = false)
    : tree.enclosingClass? lower = tree.enclosingClass? upper := by
  rw [enclosingClass?_eq, enclosingClass?_eq, linked.ancestors_eq, link]
  exact List.find?_cons_of_neg (by simp [noClass])

/-- Of two nodes on one way down, the upper one the nearest that passes a test, the same class is
around both exactly if a node that passes the test stands inside the class of the lower one.
-/
theorem Linked.enclosingClass?_nearest (linked : tree.Linked) {test : NodeId → Bool}
    {upper lower : NodeId} (nearest : tree.Nearest test upper lower)
    : tree.enclosingClass? upper = tree.enclosingClass? lower
      ↔ ∀ around, tree.enclosingClass? lower = some around →
          ∃ inner, test inner = true ∧ tree.Above around inner ∧ tree.Above inner lower := by
  rw [enclosingClass?_eq, enclosingClass?_eq, linked.find?_ancestors_eq_iff nearest.above]
  refine forall₂_congr fun around _ => ⟨fun above => ?_, ?_⟩
  · exact ⟨upper, nearest.passes, above, nearest.above⟩
  · rintro ⟨inner, passes, inside, above⟩
    exact TransGen.trans_left inside (nearest.highest inner above passes)

/-- A code block is no class. -/
theorem isClassAt_codeBlock {id : NodeId} (isBlock : tree.kind? id = some .codeBlock)
    : tree.isClassAt id = false := by
  rw [isClassAt, isBlock]
  rfl

/-- The declaration of a variable for a receiver belongs to the class of the statement behind it:
nothing changes above their block.
-/
theorem Hoisted.enclosingClass?_declaration
    (hoisted : tree.Hoisted call receiver statement block name typeName after)
    (linked : tree.Linked) (afterLinked : after.Linked)
    (inBlock : tree.parent? statement = some block)
    (isBlock : tree.kind? block = some .codeBlock) (around : tree.Above block receiver.id)
    : after.enclosingClass? tree.size = tree.enclosingClass? statement := by
  have blockKind := (hoisted.kind?_block linked around).trans isBlock
  have above : after.ancestors block = tree.ancestors block :=
    linked.ancestors_congr afterLinked fun _ way => (hoisted.unmoved linked around way).1
  calc after.enclosingClass? tree.size
    _ = after.enclosingClass? block :=
      afterLinked.enclosingClass?_of_link hoisted.declaration_parent
        (isClassAt_codeBlock blockKind)
    _ = tree.enclosingClass? block := by
      rw [enclosingClass?_eq, enclosingClass?_eq, above]
      refine List.find?_congr fun upper member => ?_
      have way := (linked.mem_ancestors.mp member).to_reflTransGen
      rw [isClassAt, isClassAt, kind?, kind?, (hoisted.unmoved linked around way).2]
    _ = tree.enclosingClass? statement :=
      (linked.enclosingClass?_of_link inBlock (isClassAt_codeBlock isBlock)).symm

end Tree

/-- The fix of a reported chain declares the variable in the class of the nearest statement of a
block around the call. It is the class of the call exactly if there is such a statement inside the
class of the call, whatever the rule does about fields.
-/
theorem Rule.keepsClass_iff {ignoreFields : Bool} {tree after : Tree}
    (reachable : tree.Reachable) {options : PassOptions} {flag : Option CancelFlag}
    {diagnostic : Diagnostic}
    (reported
      : diagnostic
        ∈ (Inspection.inspectTree (chainedMethodCall ignoreFields) tree options flag).reported)
    (succeeded : diagnostic.applyFix.apply tree = (.ok (), after))
    : ∃ receiver statement block,
        tree.childAt? diagnostic.anchor .qualifier = some receiver.id
        ∧ tree.Nearest (Fix.isBlockStatement tree) statement diagnostic.anchor
        ∧ tree.Hoisted diagnostic.anchor receiver statement block
            (Fix.variableName receiver.stripParentheses) (receiver.typeName?.getD "var") after
        ∧ after.enclosingClass? tree.size = tree.enclosingClass? statement
        ∧ (after.enclosingClass? tree.size = tree.enclosingClass? diagnostic.anchor
            ↔ ∀ around, tree.enclosingClass? diagnostic.anchor = some around →
                ∃ inner,
                  Fix.isBlockStatement tree inner = true
                  ∧ tree.Above around inner
                  ∧ tree.Above inner diagnostic.anchor) := by
  have linked := reachable.coherent.toLinked
  obtain ⟨receiver, statement, block, _, nearest, inBlock, introduces, hoisted, afterCoherent⟩ :=
    chain_hoisted reachable reported succeeded
  have declared := hoisted.enclosingClass?_declaration linked afterCoherent.toLinked inBlock
    introduces.isBlock (introduces.around.tail (introduces.below linked))
  refine ⟨receiver, statement, block, introduces.receiverAt, nearest, hoisted, declared, ?_⟩
  rw [declared]
  exact linked.enclosingClass?_nearest nearest

/-- A file with an anonymous class in a statement, whose field is initialized by a chained call. -/
def innerInitializer : Document where
  root :=
    Outline.file.withChild <| (Outline.namedClass "A").withChild <|
      (Outline.method "m").withChild <| Outline.codeBlock.withChild <|
        Outline.expressionStatement <| (Outline.ofKind .newExpression).withChild <|
          (Outline.anonymousClass "Base").withChild <|
            (Outline.field "f" "Object").withChild
              ((Outline.call "c"
                (some (Outline.call "b" (some (Outline.referenceExpression "a"))))).withRole
                .initializer)

/-- The file with a variable for the receiver. -/
def innerInitializerFixed : Tree :=
  ((Fix.introduceVariable.applyAt 10).apply (.ofDocument innerInitializer)).2

/-- The chain is reported, and its fix can be applied. -/
theorem innerInitializer_applied
    : ∃ diagnostic ∈ reportedChains innerInitializer,
        diagnostic.anchor = 10
        ∧ diagnostic.applyFix.apply (.ofDocument innerInitializer)
          = (.ok (), innerInitializerFixed) :=
  reportedChains_applied (by decide +kernel) (by decide +kernel)

/-- The variable is declared in the outer class, the call is in the anonymous one. -/
theorem innerInitializer_leaves
    : ∃ diagnostic ∈ reportedChains innerInitializer,
        diagnostic.applyFix.apply (.ofDocument innerInitializer) = (.ok (), innerInitializerFixed)
        ∧ innerInitializerFixed.kind? 13 = some .declarationStatement
        ∧ innerInitializerFixed.enclosingClass? 13 = some 1
        ∧ (Tree.ofDocument innerInitializer).enclosingClass? diagnostic.anchor = some 6 := by
  obtain ⟨diagnostic, reported, anchor, applied⟩ := innerInitializer_applied
  exact ⟨diagnostic, reported, applied, by decide +kernel, by decide +kernel,
    anchor ▸ by decide +kernel⟩

/-- No statement of a block stands between the call and the anonymous class around it. -/
theorem innerInitializer_noStatement
    : ∃ diagnostic ∈ reportedChains innerInitializer,
        diagnostic.applyFix.apply (.ofDocument innerInitializer) = (.ok (), innerInitializerFixed)
        ∧ ¬∃ inner,
            Fix.isBlockStatement (.ofDocument innerInitializer) inner = true
            ∧ (Tree.ofDocument innerInitializer).Above 6 inner
            ∧ (Tree.ofDocument innerInitializer).Above inner diagnostic.anchor := by
  obtain ⟨diagnostic, reported, anchor, applied⟩ := innerInitializer_applied
  obtain ⟨_, _, _, _, _, _, _, sameClass⟩ :=
    Rule.keepsClass_iff (.loaded innerInitializer) reported applied
  have around
      : (Tree.ofDocument innerInitializer).enclosingClass? diagnostic.anchor = some 6 :=
    anchor ▸ by decide +kernel
  have declared : innerInitializerFixed.enclosingClass? (Tree.ofDocument innerInitializer).size
      = some 1 := by decide +kernel
  refine ⟨diagnostic, reported, applied, fun inside => ?_⟩
  have same := sameClass.mpr fun upper found => by
    cases around.symm.trans found
    exact inside
  rw [declared, around] at same
  exact absurd same (by decide)

end TreeLint
