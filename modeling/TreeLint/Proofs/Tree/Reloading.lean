import TreeLint.Proofs.Tree.Loading
import TreeLint.Proofs.Tree.Renumbering
import TreeLint.Tree.Location
import TreeLint.Tree.Resolution

/-! Trees that are loaded again. What is loaded from the document of a tree is the attached part of
the tree under other numbers: the places of the nodes in pre-order. What is asked of an attached
node has the same answer in both, but for one question: a label may lead to a node that edits left
over, and in what is loaded it leads nowhere.
-/

namespace TreeLint

-----------------------------------------------------------------------------------------
-- Subtrees with the same outline
-----------------------------------------------------------------------------------------

namespace Subtree

mutual
theorem outline_renumber (number : NodeId → NodeId) (node : Subtree)
    : (node.renumber number).outline = node.outline := by
  cases node with
  | mk id content children =>
      rw [renumber_eq, outline, outline]
      exact congrArg _ (outlineAll_renumber number children)

theorem outlineAll_renumber (number : NodeId → NodeId) (nodes : List Subtree)
    : outlineAll (nodes.map (renumber number)) = outlineAll nodes := by
  cases nodes with
  | nil => rfl
  | cons node rest =>
      rw [List.map_cons, outlineAll, outlineAll, outline_renumber, outlineAll_renumber number rest]
end

mutual
/-- Subtrees with the same outline and the same numbers are the same, by induction on the first. -/
theorem eq_of_outline {first second : Subtree} (same : first.outline = second.outline)
    (numbers : first.nodes.map id = second.nodes.map id)
    : first = second := by
  cases first with
  | mk firstId content children =>
      cases second with
      | mk secondId other others =>
          rw [outline, outline, Outline.mk.injEq] at same
          rw [nodes, nodes, List.map_cons, List.map_cons, List.cons.injEq] at numbers
          rw [show firstId = secondId from numbers.1, same.1, eq_of_outlines same.2 numbers.2]

theorem eq_of_outlines {first second : List Subtree} (same : outlineAll first = outlineAll second)
    (numbers : (nodesAll first).map id = (nodesAll second).map id)
    : first = second := by
  cases first with
  | nil =>
      cases second with
      | nil => rfl
      | cons _ _ => cases same
  | cons node rest =>
      cases second with
      | nil => cases same
      | cons other others =>
          rw [outlineAll, outlineAll, List.cons.injEq] at same
          rw [nodesAll, nodesAll, List.map_append, List.map_append] at numbers
          have long : (node.nodes.map id).length = (other.nodes.map id).length := by
            rw [List.length_map, List.length_map, ← size_outline, ← size_outline, same.1]
          obtain ⟨own, later⟩ := List.append_inj numbers long
          rw [eq_of_outline same.1 own, eq_of_outlines same.2 later]
end

mutual
/-- The contents of an outline are what the nodes say, in pre-order. -/
theorem contents_outline (node : Subtree) : node.outline.contents = node.nodes.map content := by
  cases node with
  | mk id content children =>
      rw [outline, Outline.contents, contents_outlineAll, nodes, List.map_cons]
      rfl

theorem contents_outlineAll (nodes : List Subtree)
    : Outline.contentsAll (outlineAll nodes) = (nodesAll nodes).map content := by
  cases nodes with
  | nil => rfl
  | cons node rest =>
      rw [outlineAll, Outline.contentsAll, contents_outline, contents_outlineAll, nodesAll,
        List.map_append]
end

end Subtree

namespace Tree

-----------------------------------------------------------------------------------------
-- Labels
-----------------------------------------------------------------------------------------

def labelAt? (tree : Tree) (id : NodeId) : Option String :=
  (tree.content? id).bind (·.label)

/-- No two nodes carry one label, be they attached or left over. -/
def LabelsDistinct (tree : Tree) : Prop :=
  (tree.nodes.toList.filterMap (·.content.label)).Nodup

instance (tree : Tree) : Decidable tree.LabelsDistinct :=
  inferInstanceAs (Decidable (List.Nodup _))

theorem labelAt?_eq_some_iff {tree : Tree} {id : NodeId} {label : String}
    : tree.labelAt? id = some label
      ↔ ∃ present : id < tree.nodes.toList.length,
          tree.nodes.toList[id].content.label = some label := by
  rw [labelAt?, content?, node?, ← Array.getElem?_toList]
  by_cases present : id < tree.nodes.toList.length
  · rw [List.getElem?_eq_getElem present, Option.map_some, Option.bind_some,
      exists_prop_of_true present]
  · rw [List.getElem?_eq_none (Nat.le_of_not_lt present), Option.map_none, Option.bind_none]
    exact iff_of_false (Option.some_ne_none label).symm (exists_prop_of_false present)

/-- Labels are distinct if and only if nodes with the same label are the same. -/
theorem labelsDistinct_iff {tree : Tree}
    : tree.LabelsDistinct
      ↔ ∀ id other label,
          tree.labelAt? id = some label → tree.labelAt? other = some label → id = other := by
  rw [LabelsDistinct, List.Nodup, List.pairwise_filterMap, List.pairwise_iff_getElem]
  simp only [labelAt?_eq_some_iff]
  constructor
  · rintro distinct id other label ⟨present, own⟩ ⟨otherPresent, same⟩
    rcases Nat.lt_trichotomy id other with less | rfl | greater
    · exact absurd rfl (distinct id other present otherPresent less label own label same)
    · rfl
    · exact absurd rfl (distinct other id otherPresent present greater label same label own)
  · rintro distinct id other present otherPresent less label own _ same rfl
    exact Nat.ne_of_lt less (distinct id other label ⟨present, own⟩ ⟨otherPresent, same⟩)

/-- A label leads to a node that carries it. -/
theorem labelAt?_of_labelled? {tree : Tree} {label : String} {id : NodeId}
    (leads : tree.labelled? label = some id)
    : tree.labelAt? id = some label := by
  obtain ⟨present, carries, _⟩ := Array.findIdx?_eq_some_iff_getElem.mp leads
  exact labelAt?_eq_some_iff.mpr ⟨present, by simpa using carries⟩

/-- Where labels are distinct, a label leads to the node that carries it. -/
theorem LabelsDistinct.labelled?_iff {tree : Tree} (distinct : tree.LabelsDistinct)
    {label : String} {id : NodeId}
    : tree.labelled? label = some id ↔ tree.labelAt? id = some label := by
  refine ⟨labelAt?_of_labelled?, fun carries => ?_⟩
  cases leads : tree.labelled? label with
  | none =>
      obtain ⟨present, own⟩ := labelAt?_eq_some_iff.mp carries
      have without := Array.findIdx?_eq_none_iff.mp leads _
        (Array.mem_toList_iff.mp (List.getElem_mem present))
      rw [own, beq_self_eq_true] at without
      cases without
  | some other =>
      exact congrArg some (labelsDistinct_iff.mp distinct other id label
        (labelAt?_of_labelled? leads) carries)

-----------------------------------------------------------------------------------------
-- Attached nodes
-----------------------------------------------------------------------------------------

/-- The node and everything below it are attached, just as it is here. -/
structure Displays (tree : Tree) (node : Subtree) : Prop where
  attached : node.id ∈ tree.preorder
  shown : tree.subtree? node.id = some node

section Displays

variable {tree : Tree} {node child : Subtree}

theorem displays_of_shown {id : NodeId} (attached : id ∈ tree.preorder)
    (shown : tree.subtree? id = some node)
    : tree.Displays node := by
  obtain rfl := subtree?_id shown
  exact ⟨attached, shown⟩

theorem Coherent.displays_exists (coherent : tree.Coherent) {id : NodeId}
    (attached : id ∈ tree.preorder)
    : ∃ node, node.id = id ∧ tree.Displays node := by
  obtain ⟨node, shown⟩ := coherent.subtree?_exists (coherent.lt_size_of_mem_preorder attached)
  exact ⟨node, subtree?_id shown, displays_of_shown attached shown⟩

theorem Displays.content? (displays : tree.Displays node)
    : tree.content? node.id = some node.content :=
  content?_of_shown displays.shown

theorem Coherent.displays_child (coherent : tree.Coherent) (displays : tree.Displays node)
    (member : child ∈ node.children)
    : tree.Displays child where
  attached := by
    have below := coherent.parent?_of_mem_children displays.shown member
    exact coherent.mem_preorder_iff.mpr
      ((coherent.mem_preorder_iff.mp displays.attached).tail below)
  shown := (subtree?_of_mem_children displays.shown member).1

theorem Coherent.parent_attached (coherent : tree.Coherent) {id parent : NodeId}
    (attached : id ∈ tree.preorder) (up : tree.parent? id = some parent)
    : parent ∈ tree.preorder :=
  coherent.attached_of_below attached (.single up)

theorem Coherent.displays_parent (coherent : tree.Coherent) {id : NodeId}
    (attached : id ∈ tree.preorder) (up : tree.parentSubtree? id = some node)
    : tree.Displays node := by
  obtain ⟨parent, link, shown⟩ := Option.bind_eq_some_iff.mp up
  exact displays_of_shown (coherent.parent_attached attached link) shown

end Displays

-----------------------------------------------------------------------------------------
-- Attached parts under other numbers
-----------------------------------------------------------------------------------------

/-- The other tree is the attached part of a tree under other numbers. Its labels are those of the
attached nodes.
-/
structure RenumberedAs (tree other : Tree) (number : NodeId → NodeId) : Prop where
  coherent : tree.Coherent
  otherCoherent : other.Coherent
  path : other.path = tree.path
  source : other.source = tree.source
  level : other.languageLevel = tree.languageLevel
  apart : Set.InjOn number {id | id ∈ tree.preorder}
  shown : other.subtree? other.root = (tree.subtree? tree.root).map (Subtree.renumber number)
  labelled
    : ∀ label,
        other.labelled? label
        = ((tree.labelled? label).filter tree.preorder.contains).map number

namespace RenumberedAs

variable {tree other : Tree} {number : NodeId → NodeId}

/-- The attached nodes are the same in the same order. -/
theorem preorder (same : tree.RenumberedAs other number)
    : other.preorder = tree.preorder.map number := by
  obtain ⟨top, shown⟩ :=
    same.coherent.subtree?_exists (contains_iff.mp same.coherent.rootPresent)
  have otherShown := same.shown
  rw [shown, Option.map_some] at otherShown
  rw [same.coherent.preorder_eq shown, same.otherCoherent.preorder_eq otherShown,
    Subtree.nodes_renumber, List.map_map, List.map_map]
  exact List.map_congr_left fun node _ => Subtree.id_renumber node

/-- Each attached node shows the same. -/
theorem displays (same : tree.RenumberedAs other number) {node : Subtree}
    (displays : tree.Displays node)
    : other.Displays (node.renumber number) where
  attached := by
    rw [same.preorder, Subtree.id_renumber]
    exact List.mem_map_of_mem displays.attached
  shown := by
    obtain ⟨top, shown⟩ :=
      same.coherent.subtree?_exists (contains_iff.mp same.coherent.rootPresent)
    have otherShown := same.shown
    rw [shown, Option.map_some] at otherShown
    have among := displays.attached
    rw [same.coherent.preorder_eq shown] at among
    obtain ⟨inner, member, number⟩ := List.mem_map.mp among
    rw [← subtree?_id shown] at shown
    have innerShown := subtree?_of_mem_nodes shown member
    rw [number, displays.shown] at innerShown
    obtain rfl := Option.some.inj innerShown
    rw [← subtree?_id otherShown] at otherShown
    refine subtree?_of_mem_nodes otherShown ?_
    rw [Subtree.nodes_renumber]
    exact List.mem_map_of_mem member

theorem content? (same : tree.RenumberedAs other number) {id : NodeId}
    (attached : id ∈ tree.preorder)
    : other.content? (number id) = tree.content? id := by
  obtain ⟨node, rfl, displays⟩ := same.coherent.displays_exists attached
  have there := (same.displays displays).content?
  rw [Subtree.id_renumber, Subtree.content_renumber] at there
  rw [there, displays.content?]

theorem subtree? (same : tree.RenumberedAs other number) {id : NodeId}
    (attached : id ∈ tree.preorder)
    : other.subtree? (number id) = (tree.subtree? id).map (Subtree.renumber number) := by
  obtain ⟨node, rfl, displays⟩ := same.coherent.displays_exists attached
  have there := (same.displays displays).shown
  rw [Subtree.id_renumber] at there
  rw [there, displays.shown, Option.map_some]

theorem root (same : tree.RenumberedAs other number) : other.root = number tree.root := by
  obtain ⟨top, shown⟩ :=
    same.coherent.subtree?_exists (contains_iff.mp same.coherent.rootPresent)
  have otherShown := same.shown
  rw [shown, Option.map_some] at otherShown
  rw [← subtree?_id otherShown, Subtree.id_renumber, subtree?_id shown]

/-- Each attached node hangs below the same one, if below any. -/
theorem parent? (same : tree.RenumberedAs other number) {id : NodeId}
    (attached : id ∈ tree.preorder)
    : other.parent? (number id) = (tree.parent? id).map number := by
  cases up : tree.parent? id with
  | none =>
      -- An attached node without a parent is the root.
      rcases Relation.ReflTransGen.cases_tail (same.coherent.mem_preorder_iff.mp attached)
        with rfl | ⟨parent, _, link⟩
      · rw [← same.root, same.otherCoherent.rootTop, Option.map_none]
      · exact absurd (link.symm.trans up) (by simp)
  | some parent =>
      obtain ⟨node, rfl, displays⟩ :=
        same.coherent.displays_exists (same.coherent.parent_attached attached up)
      obtain ⟨child, member, rfl⟩ := same.coherent.child_of_parent? displays.shown up
      have below : child.renumber number ∈ (node.renumber number).children := by
        rw [Subtree.children_renumber]
        exact List.mem_map_of_mem member
      have link :=
        same.otherCoherent.parent?_of_mem_children (same.displays displays).shown below
      rwa [Subtree.id_renumber, Subtree.id_renumber] at link

theorem parentContent? (same : tree.RenumberedAs other number) {id : NodeId}
    (attached : id ∈ tree.preorder)
    : other.parentContent? (number id) = tree.parentContent? id := by
  rw [Tree.parentContent?, Tree.parentContent?, same.parent? attached]
  cases up : tree.parent? id with
  | none => rfl
  | some parent => exact same.content? (same.coherent.parent_attached attached up)

theorem parentSubtree? (same : tree.RenumberedAs other number) {id : NodeId}
    (attached : id ∈ tree.preorder)
    : other.parentSubtree? (number id)
      = (tree.parentSubtree? id).map (Subtree.renumber number) := by
  rw [Tree.parentSubtree?, Tree.parentSubtree?, same.parent? attached]
  cases up : tree.parent? id with
  | none => rfl
  | some parent => exact same.subtree? (same.coherent.parent_attached attached up)

/-- The walk upward meets the same nodes, by induction on its bound. -/
theorem ancestors (same : tree.RenumberedAs other number) {id : NodeId}
    (attached : id ∈ tree.preorder)
    : other.ancestors (number id) = (tree.ancestors id).map number := by
  have within (bound : Nat) {id : NodeId} (attached : id ∈ tree.preorder)
      : other.ancestorsWithin bound (number id) = (tree.ancestorsWithin bound id).map number := by
    induction bound generalizing id with
    | zero => rfl
    | succ bound ih =>
        rw [ancestorsWithin, ancestorsWithin, same.parent? attached]
        cases up : tree.parent? id with
        | none => rfl
        | some parent =>
            exact congrArg (number parent :: ·) (ih (same.coherent.parent_attached attached up))
  rw [← same.otherCoherent.ancestorsWithin_eq (Nat.le_add_left other.size tree.size),
    ← same.coherent.ancestorsWithin_eq (Nat.le_add_right tree.size other.size), within _ attached]

/-- The first of the attached nodes that passes a test is the same. -/
theorem findNode? (same : tree.RenumberedAs other number) (test : Content → Bool)
    {ids : List NodeId} (attached : ∀ id ∈ ids, id ∈ tree.preorder)
    : other.findNode? test (ids.map number) = (tree.findNode? test ids).map number := by
  rw [Tree.findNode?, Tree.findNode?, List.find?_map]
  refine congrArg _ ?_
  induction ids with
  | nil => rfl
  | cons id rest ih =>
      rw [List.find?_cons, List.find?_cons, Function.comp_apply,
        same.content? (attached id List.mem_cons_self),
        ih fun later member => attached later (List.mem_cons_of_mem id member)]

theorem findAbove? (same : tree.RenumberedAs other number) (test : Content → Bool) {id : NodeId}
    (attached : id ∈ tree.preorder)
    : other.findNode? test (other.ancestors (number id))
      = (tree.findNode? test (tree.ancestors id)).map number := by
  rw [same.ancestors attached]
  refine same.findNode? test fun upper member => ?_
  exact same.coherent.attached_of_below attached
    (same.coherent.mem_ancestors.mp member).to_reflTransGen

theorem location? (same : tree.RenumberedAs other number) {id : NodeId}
    (attached : id ∈ tree.preorder)
    : other.location? (number id) = tree.location? id := by
  simp only [Tree.location?, fileName, same.content? attached, same.path, same.source]

end RenumberedAs

-----------------------------------------------------------------------------------------
-- References
-----------------------------------------------------------------------------------------

/-- What a node says refers, by a label, to a node that is left over. -/
def refersToLeftOver (tree : Tree) (content : Content) : Bool :=
  match content.facts.resolvesTo with
  | some (.labelled label) => (tree.labelled? label).any (!tree.preorder.contains ·)
  | _ => false

/-- A declaration that a reference leads to is attached, unless the reference leads to what is left
over.
-/
theorem attached_of_resolve? {tree : Tree} {content : Content} {id : NodeId} {found : Content}
    (resolves : tree.resolve? content = some (.inside id found))
    (lives : tree.refersToLeftOver content = false)
    : id ∈ tree.preorder := by
  rw [Tree.resolve?] at resolves
  rw [refersToLeftOver] at lives
  cases target : content.facts.resolvesTo with
  | none =>
      rw [target] at resolves
      cases resolves
  | some target' =>
      cases target' with
      | external symbol =>
          rw [target] at resolves
          cases resolves
      | labelled label =>
          rw [target] at resolves lives
          obtain ⟨other, leads, known⟩ := Option.bind_eq_some_iff.mp resolves
          obtain ⟨_, _, made⟩ := Option.bind_eq_some_iff.mp known
          cases made
          simpa [leads] using lives

end Tree

/-- The declaration under another number, if it is in the tree. -/
def Declaration.renumber (number : NodeId → NodeId) : Declaration → Declaration
  | .inside id content => .inside (number id) content
  | .outside symbol => .outside symbol

namespace Tree.RenumberedAs

variable {tree other : Tree} {number : NodeId → NodeId}

/-- A reference leads to the same declaration, unless that is left over: then it leads nowhere. -/
theorem resolve? (same : tree.RenumberedAs other number) (content : Content)
    : other.resolve? content
      = if tree.refersToLeftOver content then none
        else (tree.resolve? content).map (Declaration.renumber number) := by
  rw [Tree.resolve?, Tree.resolve?, refersToLeftOver]
  cases content.facts.resolvesTo with
  | none => rfl
  | some target =>
      cases target with
      | external symbol => rfl
      | labelled label =>
          simp only [same.labelled, Option.bind_eq_bind]
          cases leads : tree.labelled? label with
          | none => rfl
          | some id =>
              by_cases attached : id ∈ tree.preorder
              · have listed : tree.preorder.contains id = true := List.contains_iff_mem.mpr attached
                simp only [Option.filter_some, listed, if_true, Option.map_some, Option.bind_some,
                  Option.any_some, Bool.not_true, same.content? attached]
                cases tree.content? id <;> rfl
              · simp [Option.filter_some, attached]

/-- What declares the member is called the same. -/
theorem owner? (same : tree.RenumberedAs other number) {declaration : Declaration}
    (attached : ∀ id ∈ declaration.id?, id ∈ tree.preorder)
    : (declaration.renumber number).owner? other = declaration.owner? tree := by
  cases declaration with
  | outside symbol => rfl
  | inside id content =>
      have present : id ∈ tree.preorder := attached id rfl
      rw [Declaration.renumber, Declaration.owner?, Declaration.owner?, enclosingClass?,
        enclosingClass?, same.findAbove? _ present]
      cases around : tree.findNode? (·.kind.isClass) (tree.ancestors id) with
      | none => rfl
      | some upper =>
          have above := same.coherent.mem_ancestors.mp (List.mem_of_find?_eq_some around)
          rw [Option.map_some, Option.bind_some, Option.bind_some,
            same.content? (same.coherent.attached_of_below present above.to_reflTransGen)]

end Tree.RenumberedAs

-----------------------------------------------------------------------------------------
-- What is loaded again
-----------------------------------------------------------------------------------------

namespace Tree

/-- What is loaded from the document of a tree. -/
def reloaded (tree : Tree) : Tree :=
  ofDocument tree.toDocument

/-- The place of an attached node in pre-order. -/
def position (tree : Tree) (id : NodeId) : NodeId :=
  tree.preorder.idxOf id

variable {tree : Tree}

/-- The outline of a document of a tree is that of what hangs below the root. -/
theorem root_toDocument {top : Subtree} (shown : tree.subtree? tree.root = some top)
    : tree.toDocument.root = top.outline := by
  rw [toDocument, outline, shown, Option.map_some, Option.getD_some]

/-- The nodes that are loaded carry the labels of the attached nodes. -/
theorem Coherent.labels_toDocument (coherent : tree.Coherent)
    : tree.toDocument.root.contents.map (·.label) = tree.preorder.map tree.labelAt? := by
  obtain ⟨top, shown⟩ := coherent.subtree?_exists (contains_iff.mp coherent.rootPresent)
  rw [root_toDocument shown, Subtree.contents_outline, coherent.preorder_eq shown, List.map_map,
    List.map_map]
  refine List.map_congr_left fun node member => ?_
  rw [← subtree?_id shown] at shown
  rw [Function.comp_apply, Function.comp_apply, labelAt?,
    content?_of_shown (subtree?_of_mem_nodes shown member), Option.bind_some]

/-- Where labels are distinct, a label leads to the same node once the tree is loaded again, and
nowhere if that is left over.
-/
theorem Coherent.labelled?_reloaded (coherent : tree.Coherent) (distinct : tree.LabelsDistinct)
    (label : String)
    : tree.reloaded.labelled? label
      = ((tree.labelled? label).filter tree.preorder.contains).map tree.position := by
  have listed : tree.reloaded.labelled? label
      = tree.preorder.findIdx? fun id => tree.labelAt? id == some label := by
    have labels := congrArg (List.findIdx? (· == some label)) coherent.labels_toDocument
    rw [List.findIdx?_map, List.findIdx?_map] at labels
    exact (labelled?_ofDocument tree.toDocument label).trans labels
  rw [listed]
  cases leads : tree.labelled? label with
  | none =>
      refine List.findIdx?_eq_none_iff.mpr fun id _ => beq_eq_false_iff_ne.mpr fun carries => ?_
      rw [distinct.labelled?_iff.mpr carries] at leads
      cases leads
  | some found =>
      have carrier : (fun id => tree.labelAt? id == some label) = (· == found) := by
        funext id
        rw [Bool.eq_iff_iff, beq_iff_eq, beq_iff_eq, ← distinct.labelled?_iff, leads,
          Option.some.injEq, eq_comm]
      rw [carrier, Option.filter_some]
      split
      · next attached =>
          rw [Option.map_some, position, List.idxOf]
          refine List.findIdx?_eq_some_iff_findIdx_eq.mpr ⟨?_, rfl⟩
          exact List.idxOf_lt_length_of_mem (List.contains_iff_mem.mp attached)
      · next absent =>
          refine List.findIdx?_eq_none_iff.mpr fun id member => beq_eq_false_iff_ne.mpr ?_
          rintro rfl
          exact absent (List.contains_iff_mem.mpr member)

/-- What is loaded from the document of a tree is its attached part, numbered in pre-order. -/
theorem Coherent.renumberedAs_reloaded (coherent : tree.Coherent)
    (distinct : tree.LabelsDistinct)
    : tree.RenumberedAs tree.reloaded tree.position where
  coherent := coherent
  otherCoherent := ofDocument_coherent tree.toDocument
  path := rfl
  source := rfl
  level := rfl
  apart := fun id attached _ _ same => (List.idxOf_inj attached).mp same
  labelled := coherent.labelled?_reloaded distinct
  shown := by
    obtain ⟨top, shown⟩ := coherent.subtree?_exists (contains_iff.mp coherent.rootPresent)
    have reloaded : tree.reloaded.Coherent := ofDocument_coherent tree.toDocument
    obtain ⟨found, there⟩ := reloaded.subtree?_exists (contains_iff.mp reloaded.rootPresent)
    have holds := ofDocument_holds tree.toDocument
    rw [shown, there, Option.map_some]
    refine congrArg some (Subtree.eq_of_outline ?_ ?_)
    · rw [Subtree.outline_renumber, holds.outline_eq there, root_toDocument shown]
    · have once := coherent.preorder_nodup
      rw [Subtree.nodes_renumber, List.map_map, holds.numbers_eq there, root_toDocument shown,
        Subtree.size_outline, ← List.range_eq_range']
      have numbers : top.nodes.map (Subtree.id ∘ Subtree.renumber tree.position)
          = tree.preorder.map tree.position := by
        rw [coherent.preorder_eq shown, List.map_map]
        exact List.map_congr_left fun node _ => Subtree.id_renumber node
      rw [numbers]
      refine List.ext_getElem ?_ fun place inside listed => ?_
      · rw [List.length_range, List.length_map, coherent.preorder_eq shown, List.length_map]
      · rw [List.getElem_range, List.getElem_map, position, once.idxOf_getElem]

end Tree

end TreeLint
