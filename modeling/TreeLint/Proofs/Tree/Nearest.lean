import TreeLint.Proofs.Tree.Links

/-! The nearest node above another one that passes a test. It is what the walk upward finds first,
and everything else above that passes the test is above it. A node that is clearly above another one
has nothing between that passes a test.
-/

namespace TreeLint.Tree

open Relation

/-- The first node is the lowest one above the second that passes a test. -/
structure Nearest (tree : Tree) (test : NodeId → Bool) (upper lower : NodeId) : Prop where
  above : tree.Above upper lower
  passes : test upper = true
  highest
    : ∀ other,
        tree.Above other lower → test other = true → ReflTransGen tree.IsParent other upper

variable {tree : Tree} {test : NodeId → Bool} {upper lower : NodeId}

/-- There is one lowest node. -/
theorem Linked.nearest_unique (linked : tree.Linked) {other : NodeId}
    (first : tree.Nearest test upper lower) (second : tree.Nearest test other lower)
    : upper = other := by
  rcases reflTransGen_iff_eq_or_transGen.mp (second.highest upper first.above first.passes) with
    same | above
  · exact same.symm
  · refine absurd (TransGen.trans_left above ?_) (linked.acyclic upper)
    exact first.highest other second.above second.passes

/-- What the walk upward finds first is the nearest, by induction on the way to another node above
that passes the test.
-/
theorem Linked.nearest_of_find? (linked : tree.Linked)
    (found : (tree.ancestors lower).find? test = some upper)
    : tree.Nearest test upper lower where
  above := linked.mem_ancestors.mp (List.mem_of_find?_eq_some found)
  passes := List.find?_some found
  highest := by
    intro other above passes
    induction above with
    | single link =>
        rw [linked.ancestors_eq, show tree.parent? _ = some other from link,
          List.find?_cons_of_pos passes] at found
        rw [Option.some.inj found]
    | @tail middle lower above link ih =>
        rw [linked.ancestors_eq, show tree.parent? lower = some middle from link] at found
        by_cases stops : test middle = true
        · rw [List.find?_cons_of_pos stops] at found
          rw [← Option.some.inj found]
          exact above.to_reflTransGen
        · rw [List.find?_cons_of_neg stops] at found
          exact ih found

/-- The walk upward finds the nearest node above that passes a test. -/
theorem Linked.find?_ancestors_iff (linked : tree.Linked)
    : (tree.ancestors lower).find? test = some upper ↔ tree.Nearest test upper lower := by
  refine ⟨linked.nearest_of_find?, fun nearest => ?_⟩
  cases found : (tree.ancestors lower).find? test with
  | none =>
      have none := List.find?_eq_none.mp found upper (linked.mem_ancestors.mpr nearest.above)
      exact absurd nearest.passes none
  | some other => rw [linked.nearest_unique (linked.nearest_of_find? found) nearest]

/-- The walk upward finds nothing exactly if nothing above passes the test. -/
theorem Linked.find?_ancestors_eq_none (linked : tree.Linked)
    : (tree.ancestors lower).find? test = none ↔ ∀ upper, tree.Above upper lower → ¬test upper := by
  simp only [List.find?_eq_none, linked.mem_ancestors]

/-- Where the nodes at and above a node keep their parents, they are above it as before, by
induction on how far the walk upward goes.
-/
theorem Linked.ancestors_congr (linked : tree.Linked) {after : Tree} (afterLinked : after.Linked)
    {id : NodeId}
    (same
      : ∀ upper, ReflTransGen tree.IsParent upper id → after.parent? upper = tree.parent? upper)
    : after.ancestors id = tree.ancestors id := by
  have within (bound : Nat)
      : after.ancestorsWithin bound id = tree.ancestorsWithin bound id := by
    induction bound generalizing id with
    | zero => rfl
    | succ bound ih =>
        rw [ancestorsWithin, ancestorsWithin, same id .refl]
        cases up : tree.parent? id with
        | none => rfl
        | some parent => exact congrArg _ (ih fun upper way => same upper (way.tail up))
  rw [← linked.ancestorsWithin_eq (Nat.le_max_left tree.size after.size),
    ← afterLinked.ancestorsWithin_eq (Nat.le_max_right tree.size after.size), within]

/-- Of two nodes on one way down, the walks upward find the same exactly if what the lower one
finds is above the upper one too.
-/
theorem Linked.find?_ancestors_eq_iff (linked : tree.Linked) {middle : NodeId}
    (above : tree.Above middle lower)
    : (tree.ancestors middle).find? test = (tree.ancestors lower).find? test
      ↔ ∀ upper, (tree.ancestors lower).find? test = some upper → tree.Above upper middle := by
  constructor
  · intro same upper found
    exact (linked.nearest_of_find? (same.trans found)).above
  · intro around
    cases found : (tree.ancestors lower).find? test with
    | none =>
        refine linked.find?_ancestors_eq_none.mpr fun upper higher => ?_
        exact linked.find?_ancestors_eq_none.mp found upper (higher.trans above)
    | some upper =>
        have nearest := linked.nearest_of_find? found
        exact linked.find?_ancestors_iff.mpr
          ⟨around upper found, nearest.passes, fun other higher passes =>
            nearest.highest other (higher.trans above) passes⟩

-----------------------------------------------------------------------------------------
-- Nothing between
-----------------------------------------------------------------------------------------

/-- The first node is above the second, and no node between them passes the test. -/
structure ClearlyAbove (tree : Tree) (test : NodeId → Bool) (upper lower : NodeId) : Prop where
  above : tree.Above upper lower
  clear
    : ∀ between, tree.Above upper between → tree.Above between lower → test between = false

/-- Nothing is between a node and its child. -/
theorem Linked.not_between (linked : tree.Linked) {between : NodeId}
    (link : tree.parent? lower = some upper) (under : tree.Above upper between)
    : ¬tree.Above between lower := by
  intro beyond
  obtain ⟨parent, up, higher⟩ := above_iff.mp beyond
  obtain rfl : upper = parent := Option.some.inj (link.symm.trans up)
  rcases higher with rfl | higher
  · exact linked.acyclic between under
  · exact linked.acyclic between (higher.trans under)

/-- What a node is clearly above is a child of it, or what a child that fails the test is clearly
above.
-/
theorem Linked.clearlyAbove_iff (linked : tree.Linked)
    : tree.ClearlyAbove test upper lower
      ↔ ∃ child,
          tree.parent? child = some upper
          ∧ (lower = child ∨ test child = false ∧ tree.ClearlyAbove test child lower) := by
  constructor
  · rintro ⟨above, clear⟩
    obtain ⟨child, link, way⟩ := TransGen.head'_iff.mp above
    have step : tree.Above upper child := .single link
    refine ⟨child, link, (reflTransGen_iff_eq_or_transGen.mp way).imp id fun below => ?_⟩
    exact ⟨clear child step below, below, fun between under beyond =>
      clear between (step.trans under) beyond⟩
  · rintro ⟨child, link, rfl | ⟨fails, above, clear⟩⟩
    · exact ⟨.single link, fun between under beyond =>
        absurd beyond (linked.not_between link under)⟩
    · refine ⟨.head link above, fun between under beyond => ?_⟩
      -- What is between is the child, or between the child and the lower node.
      have sideways := above_comparable above.to_reflTransGen beyond.to_reflTransGen
      rw [reflTransGen_iff_eq_or_transGen, reflTransGen_iff_eq_or_transGen] at sideways
      rcases sideways with (rfl | inside) | (rfl | outside)
      · exact fails
      · exact clear between inside beyond
      · exact fails
      · exact absurd outside (linked.not_between link under)

end TreeLint.Tree
