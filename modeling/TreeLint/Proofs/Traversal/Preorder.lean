import Mathlib.Data.List.Flatten
import TreeLint.Outline.Builder
import TreeLint.Proofs.Fix.Reachability
import TreeLint.Proofs.Tree.Attachment
import TreeLint.Proofs.Tree.DocumentOrder
import TreeLint.Traversal.Recorder

/-! The two traversals of a tree: the walk with a stack, and the visitor. Main result: a visitor
that walks at every callback meets the nodes that the walk with a stack takes, in the same order. One
that does not walk below some kinds of nodes meets the nodes that have none of these above them.
-/

namespace TreeLint

open Relation

-----------------------------------------------------------------------------------------
-- Reached nodes
-----------------------------------------------------------------------------------------

namespace Subtree

/-- The nodes that a walk in pre-order reaches if it does not go below nodes of some kinds. -/
def reached (stops : NodeKind → Bool) (node : Subtree) : List Subtree :=
  node.recurse fun node below =>
    node :: (if stops node.kind then [] else below.flatMap fun (_, inner) => inner)

theorem reached_eq (stops : NodeKind → Bool) (node : Subtree)
    : node.reached stops
      = node :: (if stops node.kind then [] else node.children.flatMap (reached stops)) := by
  rw [reached, recurse_eq]
  simp only [List.flatMap_map]
  rfl

theorem mem_reached_iff {stops : NodeKind → Bool} {node inner : Subtree}
    : inner ∈ node.reached stops
      ↔ inner = node
        ∨ stops node.kind = false ∧ ∃ child ∈ node.children, inner ∈ child.reached stops := by
  rw [reached_eq]
  cases stops node.kind <;> simp

/-- A walk that stops nowhere reaches every node. -/
theorem reached_all (node : Subtree) : node.reached (fun _ => false) = node.nodes := by
  induction node using Subtree.induction with
  | step node ih =>
      rw [reached_eq, nodes_eq, if_neg Bool.false_ne_true, List.flatMap_congr ih]

/-- A walk reaches some of the nodes, in the order of all. -/
theorem reached_sublist (stops : NodeKind → Bool) (node : Subtree)
    : (node.reached stops).Sublist node.nodes := by
  induction node using Subtree.induction with
  | step node ih =>
      rw [reached_eq, nodes_eq]
      refine List.Sublist.cons_cons node ?_
      split
      · exact List.nil_sublist _
      · exact List.Sublist.flatMap_right node.children ih

end Subtree

namespace Tree

/-- The second node hangs at or below the first, and none above it, from the first one on, is of a
kind that a test stops at.
-/
def OpenBelow (tree : Tree) (stops : NodeKind → Bool) (start id : NodeId) : Prop :=
  ReflTransGen tree.IsParent start id
  ∧ ∀ upper, ReflTransGen tree.IsParent start upper → tree.Above upper id →
    ∀ kind ∈ tree.kind? upper, stops kind = false

/-- The way to another node leads through one child of the first. -/
theorem Linked.openBelow_iff {tree : Tree} (linked : tree.Linked) {stops : NodeKind → Bool}
    {start id : NodeId} {kind : NodeKind} (isKind : tree.kind? start = some kind)
    : tree.OpenBelow stops start id
      ↔ id = start
        ∨ stops kind = false
          ∧ ∃ child, tree.IsParent start child ∧ tree.OpenBelow stops child id := by
  constructor
  · rintro ⟨reach, clear⟩
    rcases reach.cases_head with rfl | ⟨child, step, way⟩
    · exact .inl rfl
    · exact .inr ⟨clear start .refl (TransGen.head' step way) kind isKind, child, step, way,
        fun upper downward => clear upper (downward.head step)⟩
  · rintro (rfl | ⟨goes, child, step, reach, clear⟩)
    · refine ⟨.refl, fun upper downward above => ?_⟩
      exact (linked.acyclic id (TransGen.trans_right downward above)).elim
    · refine ⟨reach.head step, fun upper downward above => ?_⟩
      rcases downward.cases_head with rfl | ⟨other, otherStep, way⟩
      · rintro held holds
        rw [isKind] at holds
        exact Option.some.inj holds ▸ goes
      · have same : other = child := by
          by_contra apart
          have both := way.trans above.to_reflTransGen
          exact linked.siblings_disjoint otherStep step apart both reach
        exact clear upper (same ▸ way) above

/-- A walk reaches the nodes below its start with no node above them that it stops at, by induction
on the subtree.
-/
theorem Linked.mem_reached_iff {tree : Tree} (linked : tree.Linked) {stops : NodeKind → Bool}
    {found : Subtree} (shown : tree.subtree? found.id = some found) {id : NodeId}
    : id ∈ (found.reached stops).map Subtree.id ↔ tree.OpenBelow stops found.id id := by
  induction found using Subtree.induction with
  | step found ih =>
      have below := fun child (member : child ∈ found.children) =>
        ih child member (subtree?_of_mem_children shown member).1
      rw [linked.openBelow_iff (kind?_of_shown shown)]
      constructor
      · intro member
        obtain ⟨inner, inside, rfl⟩ := List.mem_map.mp member
        rcases Subtree.mem_reached_iff.mp inside with rfl | ⟨goes, child, among, reached⟩
        · exact .inl rfl
        · exact .inr ⟨goes, child.id, linked.parent?_of_mem_children shown among,
            (below child among).mp (List.mem_map_of_mem reached)⟩
      · rintro (rfl | ⟨goes, lower, step, opened⟩)
        · exact List.mem_map_of_mem (Subtree.mem_reached_iff.mpr (.inl rfl))
        · obtain ⟨child, among, rfl⟩ := linked.child_of_parent? shown step
          obtain ⟨node, reached, rfl⟩ := List.mem_map.mp ((below child among).mpr opened)
          exact List.mem_map_of_mem
            (Subtree.mem_reached_iff.mpr (.inr ⟨goes, child, among, reached⟩))

/-- The nodes that a walk reaches are in the order of the document, each of them once. -/
theorem Linked.reached_inOrder {tree : Tree} (linked : tree.Linked) (stops : NodeKind → Bool)
    {found : Subtree} (shown : tree.subtree? found.id = some found)
    : ((found.reached stops).map Subtree.id).Pairwise tree.ComesBefore
      ∧ ((found.reached stops).map Subtree.id).Nodup := by
  have inOrder : ((found.reached stops).map Subtree.id).Pairwise tree.ComesBefore :=
    List.pairwise_map.mpr ((linked.nodes_inOrder shown).sublist (found.reached_sublist stops))
  refine ⟨inOrder, inOrder.imp fun {earlier later} before same => ?_⟩
  subst same
  exact linked.comesBefore_asymm before before

end Tree

-----------------------------------------------------------------------------------------
-- Recorders
-----------------------------------------------------------------------------------------

namespace Callback

/-- Every kind of node comes to the callback for any element in the end. -/
theorem element_mem_chain (kind : NodeKind) : .element ∈ chain kind :=
  List.mem_of_getLast? (getLast?_chain kind)

end Callback

namespace Recorder

/-- The callback that writes down nodes of a kind, if one does. -/
def heardAt? (recorder : Recorder) (kind : NodeKind) : Option Callback :=
  (Callback.chain kind).find? recorder.callbacks.contains

/-- A recorder that hears of any element hears of nodes of every kind. -/
theorem heardAt?_exists {recorder : Recorder} (heard : .element ∈ recorder.callbacks)
    (kind : NodeKind)
    : ∃ callback, recorder.heardAt? kind = some callback := by
  refine Option.isSome_iff_exists.mp (List.find?_isSome.mpr ?_)
  exact ⟨.element, Callback.element_mem_chain kind, List.contains_iff_mem.mpr heard⟩

/-- Whether the children of nodes of a kind are left out. -/
def stopsAt (recorder : Recorder) (kind : NodeKind) : Bool :=
  (recorder.heardAt? kind).isSome && recorder.pruned.contains kind

def written? (recorder : Recorder) (node : Subtree) : Option Visit :=
  (recorder.heardAt? node.kind).map fun callback => { callback, node := node.id }

/-- What a callback does that is told to write nodes down. -/
def note (recorder : Recorder) (callback : Callback) : Action Progress :=
  fun node walk progress =>
    let progress := progress.add { callback, node := node.id }
    if recorder.pruned.contains node.kind then progress else walk progress

/-- The callback told so that comes first decides what happens at a node. -/
theorem findSome?_action? (recorder : Recorder) (callbacks : List Callback)
    : callbacks.findSome? recorder.visitor.action?
      = (callbacks.find? recorder.callbacks.contains).map recorder.note := by
  induction callbacks with
  | nil => rfl
  | cons callback rest ih =>
      have told : recorder.visitor.action? callback
          = if recorder.callbacks.contains callback then some (recorder.note callback) else none :=
        rfl
      rw [List.findSome?_cons, List.find?_cons, told]
      cases recorder.callbacks.contains callback with
      | false => exact ih
      | true => rfl

/-- What happens at a node: it is written down if a callback hears of it, and its children are
walked unless they are left out.
-/
theorem actionFor_eq (recorder : Recorder) (node : Subtree) (walk : Progress → Progress)
    (entries : List Visit)
    : recorder.visitor.actionFor node.kind node walk { entries }
      = if recorder.stopsAt node.kind then
          { entries := entries ++ (recorder.written? node).toList }
        else
          walk { entries := entries ++ (recorder.written? node).toList } := by
  rw [Visitor.actionFor, findSome?_action?, ← heardAt?, stopsAt, written?]
  cases recorder.heardAt? node.kind with
  | none => simp
  | some callback => rfl

/-- A visit without a limit writes down the nodes that it reaches and that a callback hears of. -/
theorem visit_eq (recorder : Recorder) (node : Subtree) (entries : List Visit)
    : recorder.visitor.visit node { entries }
      = { entries :=
            entries ++ (node.reached recorder.stopsAt).filterMap recorder.written? } := by
  induction node using Subtree.induction generalizing entries with
  | step node ih =>
      have each : ∀ below : List Subtree, (∀ child ∈ below, child ∈ node.children) → ∀ entries,
          recorder.visitor.walk below { entries }
            = { entries :=
                  entries ++ (below.flatMap (Subtree.reached recorder.stopsAt)).filterMap
                    recorder.written? } := by
        intro below
        induction below with
        | nil => simp [Visitor.walk]
        | cons child rest restIH =>
            intro among entries
            have others := restIH fun other later => among other (List.mem_cons_of_mem child later)
            have goesOn : recorder.visitor.goesOn { entries } = (true, { entries }) := rfl
            rw [Visitor.walk, goesOn]
            dsimp only
            rw [ih child (among child List.mem_cons_self), others, List.flatMap_cons,
              List.filterMap_append, List.append_assoc]
      rw [Visitor.visit_eq, actionFor_eq, each node.children fun _ member => member,
        Subtree.reached_eq]
      cases recorder.stopsAt node.kind <;> cases here : recorder.written? node <;>
        simp [here]

/-- The nodes that a recorder writes down from a node of a tree on, if nothing is broken there. -/
def met? (recorder : Recorder) (tree : Tree) (start : NodeId) : Option (List NodeId) :=
  (tree.subtree? start).map fun node => (recorder.record none node).map (·.node)

/-- A recorder that hears of every node writes down the nodes that it reaches. -/
theorem met?_eq {recorder : Recorder} (heard : .element ∈ recorder.callbacks) (tree : Tree)
    (start : NodeId)
    : recorder.met? tree start
      = (tree.subtree? start).map fun node =>
          (node.reached recorder.pruned.contains).map Subtree.id := by
  have stops : recorder.stopsAt = recorder.pruned.contains := by
    funext kind
    obtain ⟨callback, hearing⟩ := heardAt?_exists heard kind
    rw [stopsAt, hearing]
    rfl
  have entries : ∀ nodes : List Subtree,
      (nodes.filterMap recorder.written?).map (·.node) = nodes.map Subtree.id := by
    intro nodes
    induction nodes with
    | nil => rfl
    | cons node rest ih =>
        obtain ⟨callback, hearing⟩ := heardAt?_exists heard node.kind
        simp [written?, hearing, ih]
  rw [met?]
  congr 1
  funext node
  rw [record, visit_eq, List.nil_append, entries, stops]

end Recorder

-----------------------------------------------------------------------------------------
-- The two traversals
-----------------------------------------------------------------------------------------

namespace Tree

/-- Whatever callbacks it overrides, a visitor that walks at all of them meets from the root on what
the walk with a stack takes.
-/
theorem Coherent.met?_root {tree : Tree} (coherent : tree.Coherent) {callbacks : List Callback}
    (heard : .element ∈ callbacks)
    : ({ callbacks } : Recorder).met? tree tree.root = some tree.preorder := by
  obtain ⟨root, shown⟩ := coherent.subtree?_exists (contains_iff.mp coherent.rootPresent)
  rw [Recorder.met?_eq heard, coherent.preorder_eq shown, shown, ← root.reached_all]
  rfl

/-- From any node on, a visitor meets each node at or below it with no node above, from there on, of
a kind that it does not walk below, and no other.
-/
theorem Coherent.met?_exists {tree : Tree} (coherent : tree.Coherent) {recorder : Recorder}
    (heard : .element ∈ recorder.callbacks) {start : NodeId} (present : tree.contains start)
    : ∃ met, recorder.met? tree start = some met
        ∧ met.Nodup
        ∧ met.Pairwise tree.ComesBefore
        ∧ ∀ id, id ∈ met
          ↔ ReflTransGen tree.IsParent start id
            ∧ ∀ upper, ReflTransGen tree.IsParent start upper → tree.Above upper id →
              ∀ kind ∈ tree.kind? upper, kind ∉ recorder.pruned := by
  obtain ⟨node, shown⟩ := coherent.subtree?_exists (contains_iff.mp present)
  have met := Recorder.met?_eq heard tree start
  rw [shown] at met
  obtain rfl := subtree?_id shown
  obtain ⟨inOrder, once⟩ := coherent.reached_inOrder recorder.pruned.contains shown
  refine ⟨_, met, once, inOrder, fun id => ?_⟩
  simp only [coherent.mem_reached_iff shown, OpenBelow, ← Bool.not_eq_true, List.contains_iff_mem]

/-- On every tree that occurs the two traversals agree: a visitor that writes down every node, at
whatever callback, and walks on meets the nodes that the walk with a stack takes until the stack is
empty, in the same order. These are the attached nodes, each once, in the order of the document.

Started at any node, a visitor that does not walk below nodes of some kinds meets each node at or
below the start that has no node of these kinds above it from the start on, and no other, each once
and in the order of the document.
-/
theorem traversals_agree {tree : Tree} (reachable : tree.Reachable) {callbacks : List Callback}
    (heard : .element ∈ callbacks)
    : (({ callbacks } : Recorder).met? tree tree.root = some tree.preorder
        ∧ (∀ bound, tree.size ≤ bound → tree.preorderFrom bound [tree.root] = tree.preorder)
        ∧ tree.preorder.Nodup
        ∧ tree.preorder.Pairwise tree.ComesBefore
        ∧ ∀ id, id ∈ tree.preorder ↔ tree.Attached id)
      ∧ ∀ start, tree.contains start → ∀ pruned : List NodeKind,
        ∃ met, ({ callbacks, pruned } : Recorder).met? tree start = some met
          ∧ met.Nodup
          ∧ met.Pairwise tree.ComesBefore
          ∧ ∀ id, id ∈ met
            ↔ ReflTransGen tree.IsParent start id
              ∧ ∀ upper, ReflTransGen tree.IsParent start upper → tree.Above upper id →
                ∀ kind ∈ tree.kind? upper, kind ∉ pruned := by
  have coherent := reachable.coherent
  obtain ⟨root, shown⟩ := coherent.subtree?_exists (contains_iff.mp coherent.rootPresent)
  have walk (bound : Nat) (enough : tree.size ≤ bound)
      : tree.preorderFrom bound [tree.root] = tree.preorder :=
    (coherent.preorderFrom_eq shown enough).trans (coherent.preorder_eq shown).symm
  have inOrder : tree.preorder.Pairwise tree.ComesBefore := by
    rw [coherent.preorder_eq shown, List.pairwise_map]
    exact coherent.nodes_inOrder (subtree?_id shown ▸ shown)
  exact ⟨⟨coherent.met?_root heard, walk, coherent.preorder_nodup, inOrder,
    fun _ => coherent.attached_iff.symm⟩, fun _ present _ => coherent.met?_exists heard present⟩

/-- A file with a class with a method, a method inside an anonymous class, and a field. -/
def outerAndInner : Document where
  root :=
    (Outline.ofKind .file).withChild
      ((((Outline.ofKind .namedClass).withChild (.ofKind .method)).withChild
        ((Outline.ofKind .anonymousClass).withChild (.ofKind .method))).withChild
        (.ofKind .field))

/-- The two traversals of the file, and a visitor that begins at the class and does not walk below
the anonymous class.
-/
theorem outerAndInner_traversed
    : let tree := ofDocument outerAndInner
      .element ∈ Recorder.groups
      ∧ tree.preorder = [0, 1, 2, 3, 4, 5]
      ∧ ({ callbacks := Recorder.groups } : Recorder).met? tree 0 = some [0, 1, 2, 3, 4, 5]
      ∧ ({ callbacks := Recorder.groups, pruned := [.anonymousClass] } : Recorder).met? tree 1
        = some [1, 2, 3, 5]
      ∧ ∀ id, id ∈ [1, 2, 3, 5]
        ↔ ReflTransGen tree.IsParent 1 id
          ∧ ∀ upper, ReflTransGen tree.IsParent 1 upper → tree.Above upper id →
            ∀ kind ∈ tree.kind? upper, kind ∉ [NodeKind.anonymousClass] := by
  have heard : .element ∈ Recorder.groups := by decide
  have preorder : (ofDocument outerAndInner).preorder = [0, 1, 2, 3, 4, 5] := by decide
  have pruned : ({ callbacks := Recorder.groups, pruned := [.anonymousClass] } : Recorder).met?
      (ofDocument outerAndInner) 1 = some [1, 2, 3, 5] := by
    decide
  obtain ⟨⟨agree, _⟩, starts⟩ := traversals_agree (.loaded outerAndInner) heard
  obtain ⟨met, known, _, _, members⟩ := starts 1 rfl [.anonymousClass]
  obtain rfl := Option.some.inj (known.symm.trans pruned)
  exact ⟨heard, preorder, preorder ▸ agree, pruned, members⟩

end Tree

end TreeLint
