import TreeLint.Proofs.Tree.Attachment
import TreeLint.Proofs.Tree.Contents
import TreeLint.Proofs.Tree.Outcomes
import TreeLint.Subtree.Text

/-! Texts that are told twice: by the host, and by the children of the node. A change below a node
shows in the text that its children tell only as far up as no text of the host is in between. Main
result: if a change rewords the tree from some node on, then every node still shows what its children
tell, but for the lowest one at or above that node which has a text of the host.
-/

namespace TreeLint

open Relation

-----------------------------------------------------------------------------------------
-- Texts told by children
-----------------------------------------------------------------------------------------

/-- Without a text of the host, the text of a node of this kind is put together from the texts of
its children.
-/
def NodeKind.quotes (kind : NodeKind) : Bool :=
  [NodeKind.binaryExpression, .methodCall, .referenceExpression,
    .parenthesizedExpression].contains kind

/-- Texts of children with this role have a place of their own in the text of the node. -/
def Role.isQuoted (role : Role) : Bool :=
  [Role.lhs, .rhs, .qualifier, .argument].contains role

/-- The two say the same about a node as far as its own text goes. -/
structure Content.SameWords (content now : Content) : Prop where
  kind : now.kind = content.kind
  name : now.name = content.name
  text : now.text = content.text
  operator : now.facts.operator = content.facts.operator

namespace Subtree

/-- The text of the node as its children tell it. -/
def rebuilt (node : Subtree) : String :=
  rebuild node (node.children.map fun child => (child, child.sourceText))

theorem sourceText_eq (node : Subtree) : node.sourceText = node.text?.getD node.rebuilt := by
  rw [sourceText, recurse_eq]
  rfl

theorem sourceText_of_text {node : Subtree} {text : String} (told : node.content.text = some text)
    : node.sourceText = text := by
  rw [sourceText_eq, text?, told, Option.getD_some]

theorem sourceText_of_textless {node : Subtree} (textless : node.content.text = none)
    : node.sourceText = node.rebuilt := by
  rw [sourceText_eq, text?, textless, Option.getD_none]

/-- Where the host gives a text for a node that quotes its children, it is the text that they
tell.
-/
def TellsText (node : Subtree) : Prop :=
  node.kind.quotes → node.children ≠ [] → ∀ text ∈ node.text?, text = node.rebuilt

instance (node : Subtree) : Decidable node.TellsText :=
  inferInstanceAs (Decidable (_ → _ → ∀ text ∈ node.text?, text = node.rebuilt))

/-- The children with a place of their own in the text of the node, with their roles and texts. -/
def quoted (node : Subtree) : List (Role × String) :=
  (node.children.filter (·.role.isQuoted)).map fun child => (child.role, child.sourceText)

/-- The first child with a role gives the text that is found for the role. -/
theorem valueAt?_texts (node : Subtree) (role : Role)
    : valueAt? (node.children.map fun child => (child, child.sourceText)) role
      = (node.childWithRole? role).map sourceText := by
  rw [valueAt?, childWithRole?, List.find?_map, Option.map_map]
  rfl

/-- The first child with a quoted role is found among the quoted children. -/
theorem valueAt?_quoted (node : Subtree) {role : Role} (isQuoted : role.isQuoted)
    : valueAt? (node.children.map fun child => (child, child.sourceText)) role
      = (node.quoted.find? (·.1 == role)).map (·.2) := by
  have both : (node.children.filter (·.role.isQuoted)).find? (·.role == role)
      = node.children.find? (·.role == role) := by
    rw [List.find?_filter]
    congr 1
    funext child
    cases same : child.role == role with
    | false => simp
    | true => simp [eq_of_beq same, isQuoted]
  rw [valueAt?, quoted, List.find?_map, List.find?_map, Option.map_map, Option.map_map]
  exact congrArg (Option.map _) both.symm

/-- The arguments are found among the quoted children. -/
theorem arguments_quoted (node : Subtree)
    : (((node.children.map fun child => (child, child.sourceText)).filter
        (·.1.role == .argument)).map (·.2))
      = (node.quoted.filter (·.1 == .argument)).map (·.2) := by
  have both : (node.children.filter (·.role.isQuoted)).filter (·.role == .argument)
      = node.children.filter (·.role == .argument) := by
    rw [List.filter_filter]
    refine List.filter_congr fun child _ => ?_
    cases same : child.role == Role.argument with
    | false => rw [Bool.false_and]
    | true => rw [eq_of_beq same]; rfl
  rw [quoted, List.filter_map, List.filter_map, List.map_map, List.map_map]
  exact congrArg (List.map _) both.symm

/-- What children tell of a node depends on the first of them and on the quoted ones, by cases on the
kind of the node.
-/
theorem rebuilt_congr {node other : Subtree} (words : node.content.SameWords other.content)
    (parts : node.kind.quotes
      → other.children.head?.map sourceText = node.children.head?.map sourceText
        ∧ other.quoted = node.quoted)
    : other.rebuilt = node.rebuilt := by
  have sameKind : other.kind = node.kind := words.kind
  have sameName : other.name? = node.name? := words.name
  have sameOperator : other.facts.operator = node.facts.operator := words.operator
  rw [rebuilt, rebuilt, rebuild, rebuild, sameKind, sameName, sameOperator]
  cases kind : node.kind with
  | binaryExpression =>
      obtain ⟨_, quoted⟩ := parts (by rw [kind]; rfl)
      simp only [valueAt?_quoted _ (show Role.lhs.isQuoted from rfl),
        valueAt?_quoted _ (show Role.rhs.isQuoted from rfl), quoted]
  | methodCall =>
      obtain ⟨_, quoted⟩ := parts (by rw [kind]; rfl)
      simp only [valueAt?_quoted _ (show Role.qualifier.isQuoted from rfl), arguments_quoted,
        quoted]
  | referenceExpression =>
      obtain ⟨_, quoted⟩ := parts (by rw [kind]; rfl)
      simp only [valueAt?_quoted _ (show Role.qualifier.isQuoted from rfl), quoted]
  | parenthesizedExpression =>
      obtain ⟨first, _⟩ := parts (by rw [kind]; rfl)
      have shown (node : Subtree)
          : ((node.children.map fun child => (child, child.sourceText)).head?.elim "" (·.2))
            = (node.children.head?.map sourceText).getD "" := by
        rw [List.head?_map]
        cases node.children.head? <;> rfl
      simp only [shown, first]
  | _ => rfl

end Subtree

namespace Tree

-----------------------------------------------------------------------------------------
-- Texts in the arena
-----------------------------------------------------------------------------------------

def text? (tree : Tree) (id : NodeId) : Option String :=
  (tree.content? id).bind (·.text)

def sourceText? (tree : Tree) (id : NodeId) : Option String :=
  (tree.subtree? id).map (·.sourceText)

/-- Where the host gives a text for the node, it is the text that its children tell. -/
def TellsText (tree : Tree) (id : NodeId) : Prop :=
  ∀ node ∈ tree.subtree? id, node.TellsText

instance (tree : Tree) (id : NodeId) : Decidable (tree.TellsText id) :=
  inferInstanceAs (Decidable (∀ node ∈ tree.subtree? id, node.TellsText))

/-- Every attached node that quotes its children shows what they tell. -/
def TextConsistent (tree : Tree) : Prop :=
  ∀ id ∈ tree.preorder, tree.TellsText id

instance (tree : Tree) : Decidable tree.TextConsistent :=
  inferInstanceAs (Decidable (∀ id ∈ tree.preorder, tree.TellsText id))

/-- The lowest node at or above a node that has a text of the host. -/
def textedFrom? (tree : Tree) (id : NodeId) : Option NodeId :=
  (id :: tree.ancestors id).find? fun upper => (tree.text? upper).isSome

/-- Those of the nodes with a place of their own in the text of a node above them, with their roles. -/
def quotedAmong (tree : Tree) (ids : List NodeId) : List (Option Role × NodeId) :=
  (ids.filter fun id => (tree.content? id).any (·.role.isQuoted)).map
    fun id => ((tree.content? id).map (·.role), id)

variable {tree other : Tree}

theorem text?_of_shown {found : Subtree} (shown : tree.subtree? found.id = some found)
    : tree.text? found.id = found.content.text := by
  rw [text?, content?_of_shown shown, Option.bind_some]

theorem content?_of_text? {id : NodeId} {text : String} (told : tree.text? id = some text)
    : ∃ content, tree.content? id = some content ∧ content.text = some text :=
  Option.bind_eq_some_iff.mp told

theorem sourceText?_of_shown {found : Subtree} (shown : tree.subtree? found.id = some found)
    : tree.sourceText? found.id = some found.sourceText := by
  rw [sourceText?, shown, Option.map_some]

/-- A node with a text of the host shows it. -/
theorem Linked.sourceText?_of_text? (linked : tree.Linked) {id : NodeId} {text : String}
    (told : tree.text? id = some text)
    : tree.sourceText? id = some text := by
  obtain ⟨content, known, _⟩ := content?_of_text? told
  obtain ⟨found, shown⟩ := linked.subtree?_exists (lt_size_of_content? known)
  obtain rfl := subtree?_id shown
  rw [sourceText?_of_shown shown,
    Subtree.sourceText_of_text ((text?_of_shown shown).symm.trans told)]

/-- The quoted ones of some nodes depend on their roles alone. -/
theorem quotedAmong_congr {ids : List NodeId}
    (roles : ∀ id ∈ ids, (other.content? id).map (·.role) = (tree.content? id).map (·.role))
    : other.quotedAmong ids = tree.quotedAmong ids := by
  have tests : ∀ id ∈ ids, (other.content? id).any (·.role.isQuoted)
      = (tree.content? id).any (·.role.isQuoted) := by
    intro id member
    have mapped (tree : Tree) : (tree.content? id).any (·.role.isQuoted)
        = ((tree.content? id).map (·.role)).any Role.isQuoted := by
      rw [Option.any_map]
    rw [mapped, mapped, roles id member]
  rw [quotedAmong, quotedAmong, List.filter_congr tests]
  exact List.map_congr_left fun id member => by rw [roles id (List.mem_of_mem_filter member)]

/-- A node that is not quoted adds nothing to the quoted ones. -/
theorem quotedAmong_insert {ids : List NodeId} {index : Nat} {new : NodeId}
    (inside : index ≤ ids.length) (plain : (tree.content? new).any (·.role.isQuoted) = false)
    : tree.quotedAmong (ids.insertIdx index new) = tree.quotedAmong ids := by
  rw [quotedAmong, quotedAmong, insertIdx_eq_append inside, List.filter_append,
    List.filter_cons_of_neg (by simp [plain]), ← List.filter_append, List.take_append_drop]

/-- The quoted children of a node, as the arena names them. -/
theorem quotedAmong_of_shown {found : Subtree} (shown : tree.subtree? found.id = some found)
    : tree.quotedAmong (tree.childIds found.id)
      = (found.children.filter (·.role.isQuoted)).map fun child => (some child.role, child.id) := by
  rw [quotedAmong, ← filter_children shown fun content => content.role.isQuoted, List.map_map]
  refine List.map_congr_left fun child member => ?_
  rw [Function.comp_apply, content?_of_mem_children shown (List.mem_of_mem_filter member)]
  rfl

/-- The roles and texts of the quoted children of a node, as the arena tells them. -/
theorem quoted_of_shown {found : Subtree} (shown : tree.subtree? found.id = some found)
    : found.quoted.map (fun part => (some part.1, some part.2))
      = (tree.quotedAmong (tree.childIds found.id)).map
          fun part => (part.1, tree.sourceText? part.2) := by
  rw [quotedAmong_of_shown shown, Subtree.quoted, List.map_map, List.map_map]
  refine List.map_congr_left fun child member => ?_
  have below := subtree?_of_mem_children shown (List.mem_of_mem_filter member)
  simp only [Function.comp_apply, sourceText?_of_shown below.1]

/-- The text of the first child of a node, as the arena tells it. -/
theorem head?_sourceText_of_shown {found : Subtree} (shown : tree.subtree? found.id = some found)
    : found.children.head?.map Subtree.sourceText
      = (tree.childIds found.id).head?.bind tree.sourceText? := by
  rw [← subtree?_children shown, List.head?_map]
  cases first : found.children.head? with
  | none => rfl
  | some child =>
      have below := subtree?_of_mem_children shown (List.mem_of_mem_head? first)
      rw [Option.map_some, Option.map_some, Option.bind_some, sourceText?_of_shown below.1]

-----------------------------------------------------------------------------------------
-- Nodes that tell the same
-----------------------------------------------------------------------------------------

/-- The node tells the same in both trees as far as it is not left to its children. -/
structure Retells (tree other : Tree) (id : NodeId) : Prop where
  words
    : ∀ content,
        tree.content? id = some content
        → ∃ now, other.content? id = some now ∧ content.SameWords now
  parts
    : (∃ kind, tree.kind? id = some kind ∧ kind.quotes)
      → (other.childIds id).head? = (tree.childIds id).head?
        ∧ other.quotedAmong (other.childIds id) = tree.quotedAmong (tree.childIds id)

namespace Retells

theorem text? {id : NodeId} (retells : tree.Retells other id) (old : id < tree.size)
    : other.text? id = tree.text? id := by
  obtain ⟨content, before⟩ := content?_exists old
  obtain ⟨now, known, words⟩ := retells.words content before
  rw [Tree.text?, Tree.text?, before, known, Option.bind_some, Option.bind_some, words.text]

theorem kind? {id : NodeId} (retells : tree.Retells other id) (old : id < tree.size)
    : other.kind? id = tree.kind? id := by
  obtain ⟨content, before⟩ := content?_exists old
  obtain ⟨now, known, words⟩ := retells.words content before
  rw [Tree.kind?, Tree.kind?, before, known, Option.map_some, Option.map_some, words.kind]

theorem trans {last : Tree} {id : NodeId} (first : tree.Retells other id)
    (second : other.Retells last id) (old : id < tree.size)
    : tree.Retells last id where
  words content before := by
    obtain ⟨middle, known, words⟩ := first.words content before
    obtain ⟨now, after, more⟩ := second.words middle known
    exact ⟨now, after, more.kind.trans words.kind, more.name.trans words.name,
      more.text.trans words.text, more.operator.trans words.operator⟩
  parts quotes := by
    obtain ⟨head, parts⟩ := first.parts quotes
    obtain ⟨headThen, partsThen⟩ := second.parts (by rwa [first.kind? old])
    exact ⟨headThen.trans head, partsThen.trans parts⟩

/-- A node of a kind that quotes nothing tells the same if it says the same. -/
theorem of_content {id : NodeId} (same : other.content? id = tree.content? id)
    (plain : ∀ kind ∈ tree.kind? id, kind.quotes = false)
    : tree.Retells other id where
  words content before := ⟨content, same.trans before, rfl, rfl, rfl, rfl⟩
  parts := by
    rintro ⟨kind, isKind, quotes⟩
    rw [plain kind isKind] at quotes
    cases quotes

/-- A node with the same children in the same roles tells the same if its words are the same. -/
theorem of_children {id : NodeId}
    (words : ∀ content, tree.content? id = some content
      → ∃ now, other.content? id = some now ∧ content.SameWords now)
    (children : other.childIds id = tree.childIds id)
    (roles : ∀ child ∈ tree.childIds id,
      (other.content? child).map (·.role) = (tree.content? child).map (·.role))
    : tree.Retells other id where
  words := words
  parts _ := by
    rw [children]
    exact ⟨rfl, quotedAmong_congr roles⟩

/-- A node tells the same if it gets a child that is not quoted behind another one. -/
theorem of_insert {id new : NodeId} {index : Nat}
    (words : ∀ content, tree.content? id = some content
      → ∃ now, other.content? id = some now ∧ content.SameWords now)
    (children : other.childIds id = (tree.childIds id).insertIdx index new)
    (inside : index ≤ (tree.childIds id).length) (behind : 0 < index)
    (roles : ∀ child ∈ tree.childIds id,
      (other.content? child).map (·.role) = (tree.content? child).map (·.role))
    (plain : (other.content? new).any (·.role.isQuoted) = false)
    : tree.Retells other id where
  words := words
  parts _ := by
    rw [children, quotedAmong_insert inside plain, quotedAmong_congr roles]
    refine ⟨?_, rfl⟩
    rw [insertIdx_eq_append inside, List.head?_append, List.head?_take, if_neg (Nat.ne_of_gt behind)]
    cases head : (tree.childIds id).head? with
    | none =>
        rw [List.head?_eq_none_iff.mp head] at inside
        exact absurd inside (Nat.not_le_of_lt behind)
    | some first => rfl

theorem shown {id : NodeId} (retells : tree.Retells other id) (otherLinked : other.Linked)
    (old : id < tree.size)
    : ∃ now, other.subtree? id = some now := by
  obtain ⟨content, before⟩ := content?_exists old
  obtain ⟨now, known, _⟩ := retells.words content before
  exact otherLinked.subtree?_exists (lt_size_of_content? known)

/-- If a node tells the same and its children have the same texts, then they tell the same text. -/
theorem rebuilt {found now : Subtree} (retells : tree.Retells other found.id)
    (shown : tree.subtree? found.id = some found) (nowShown : other.subtree? found.id = some now)
    (texts : ∀ child ∈ found.children, other.sourceText? child.id = tree.sourceText? child.id)
    : now.rebuilt = found.rebuilt := by
  have number := subtree?_id nowShown
  obtain ⟨content, known, words⟩ := retells.words _ (content?_of_shown shown)
  rw [← number] at nowShown
  have here := content?_of_shown nowShown
  rw [number, known] at here
  cases here
  have same : ∀ child ∈ tree.childIds found.id, other.sourceText? child = tree.sourceText? child := by
    rw [← subtree?_children shown]
    exact List.forall_mem_map.mpr texts
  refine Subtree.rebuilt_congr words fun quotes => ?_
  obtain ⟨head, parts⟩ := retells.parts ⟨found.kind, kind?_of_shown shown, quotes⟩
  constructor
  · rw [head?_sourceText_of_shown nowShown, head?_sourceText_of_shown shown, number, head]
    cases first : (tree.childIds found.id).head? with
    | none => rfl
    | some child => exact same child (List.mem_of_mem_head? first)
  · refine List.map_injective_iff.mpr
      (Function.Injective.prodMap (Option.some_injective Role) (Option.some_injective String)) ?_
    refine (quoted_of_shown nowShown).trans (Eq.trans ?_ (quoted_of_shown shown).symm)
    rw [number, parts]
    refine List.map_congr_left fun part member => ?_
    obtain ⟨child, among, rfl⟩ := List.mem_map.mp member
    rw [same child (List.mem_of_mem_filter among)]

/-- A node that quotes its children and tells the same has children if it has some in the other
tree.
-/
theorem childIds_ne_nil {id : NodeId} (retells : tree.Retells other id)
    (quotes : ∃ kind, tree.kind? id = some kind ∧ kind.quotes) (children : other.childIds id ≠ [])
    : tree.childIds id ≠ [] := by
  intro empty
  have head := (retells.parts quotes).1
  rw [empty, List.head?_nil, List.head?_eq_none_iff] at head
  exact children head

end Retells

-----------------------------------------------------------------------------------------
-- How far up a change shows
-----------------------------------------------------------------------------------------

/-- The text that children tell of the node depends on that of the first one: all nodes from there up
to this one have no text of the host.
-/
inductive Rereads (tree : Tree) (start : Option NodeId) : NodeId → Prop where
  | start {id : NodeId} (isStart : start = some id) : Rereads tree start id
  | up {lower upper : NodeId} (below : Rereads tree start lower) (textless : tree.text? lower = none)
      (link : tree.parent? lower = some upper)
    : Rereads tree start upper

/-- The second tree is the first with other words from some node on: at that node, or with text in
the place of a child of it, the replaced node. What is new has no text or quotes nothing.
-/
structure RewordedFrom (tree : Tree) (start replaced : Option NodeId) (other : Tree) : Prop where
  nodes
    : ∀ id < tree.size,
        tree.Retells other id
        ∨ start = some id ∧ other.text? id = tree.text? id
        ∨ replaced = some id ∧ tree.parent? id = start
  isText : ∀ id ∈ replaced, other.kind? id = some .fragment
  fresh
    : ∀ id content,
        tree.size ≤ id
        → other.content? id = some content
        → content.text = none ∨ content.kind.quotes = false

/-- The second tree has the nodes of the first one, and they all tell the same. What is new has no
text or quotes nothing.
-/
structure Retold (tree other : Tree) : Prop where
  grows : tree.size ≤ other.size
  nodes : ∀ id < tree.size, tree.Retells other id
  fresh
    : ∀ id content,
        tree.size ≤ id
        → other.content? id = some content
        → content.text = none ∨ content.kind.quotes = false

theorem Retold.refl (tree : Tree) : tree.Retold tree where
  grows := Nat.le_refl _
  nodes _ _ := .of_children (fun content before => ⟨content, before, rfl, rfl, rfl, rfl⟩) rfl
    fun _ _ => rfl
  fresh _ _ new known := absurd (lt_size_of_content? known) (Nat.not_lt_of_le new)

theorem Retold.trans {last : Tree} (first : tree.Retold other) (second : other.Retold last)
    : tree.Retold last where
  grows := Nat.le_trans first.grows second.grows
  nodes id old :=
    (first.nodes id old).trans (second.nodes id (Nat.lt_of_lt_of_le old first.grows)) old
  fresh id content new known := by
    by_cases middle : id < other.size
    · obtain ⟨before, there⟩ := content?_exists middle
      obtain ⟨now, here, words⟩ := (second.nodes id middle).words before there
      cases known.symm.trans here
      rw [words.text, words.kind]
      exact first.fresh id before new there
    · exact second.fresh id content (Nat.le_of_not_lt middle) known

/-- If all nodes tell the same, then nothing is reworded wherever one looks. -/
theorem Retold.rewordedFrom (retold : tree.Retold other) (start : Option NodeId)
    : tree.RewordedFrom start none other where
  nodes _ old := .inl (retold.nodes _ old)
  isText _ isReplaced := nomatch isReplaced
  fresh := retold.fresh

variable {start replaced : Option NodeId}

/-- Every node up to which a change shows has the same lowest text above it, by induction on the way
up.
-/
theorem Rereads.textedFrom?_eq (linked : tree.Linked) {id : NodeId}
    (rereads : tree.Rereads start id)
    : start.bind tree.textedFrom? = tree.textedFrom? id := by
  induction rereads with
  | start isStart => rw [isStart, Option.bind_some]
  | up _ textless link ih =>
      rw [ih, textedFrom?, List.find?_cons, textless, linked.ancestors_eq, link]
      rfl

/-- A node up to which a change shows and that has a text of the host is the lowest one that has. -/
theorem Rereads.eq_textedFrom? (linked : tree.Linked) {id : NodeId}
    (rereads : tree.Rereads start id) (texted : (tree.text? id).isSome)
    : start.bind tree.textedFrom? = some id :=
  (rereads.textedFrom?_eq linked).trans (List.find?_cons_of_pos texted)

/-- The lowest node with a text at or above a node is at or above it. -/
theorem Linked.reach_of_textedFrom? (linked : tree.Linked) {id upper : NodeId}
    (lowest : tree.textedFrom? id = some upper)
    : ReflTransGen tree.IsParent upper id := by
  rcases List.mem_cons.mp (List.mem_of_find?_eq_some lowest) with rfl | above
  · exact .refl
  · exact (linked.mem_ancestors.mp above).to_reflTransGen

namespace RewordedFrom

/-- The node shows the same text in both trees: it tells the same and no change shows in it, or it
has the text of the host that it had.
-/
def Stays (tree : Tree) (start : Option NodeId) (other : Tree) (id : NodeId) : Prop :=
  tree.Retells other id ∧ ¬tree.Rereads start id
  ∨ (tree.text? id).isSome ∧ other.text? id = tree.text? id

/-- A text of the host changes only where other text takes the place of the node. -/
theorem text?_eq (reworded : tree.RewordedFrom start replaced other) {id : NodeId}
    (old : id < tree.size) (spared : replaced ≠ some id)
    : other.text? id = tree.text? id := by
  rcases reworded.nodes id old with retells | ⟨_, same⟩ | ⟨isReplaced, _⟩
  · exact retells.text? old
  · exact same
  · exact absurd isReplaced spared

/-- The children of a node in which no change shows stay. -/
theorem children_stay (reworded : tree.RewordedFrom start replaced other) {id child : NodeId}
    (unread : ¬tree.Rereads start id) (link : tree.parent? child = some id)
    : Stays tree start other child := by
  have told (rereads : tree.Rereads start child) : (tree.text? child).isSome :=
    Option.isSome_iff_ne_none.mpr fun textless => unread (rereads.up textless link)
  have old := lt_size_of_parent? link
  rcases reworded.nodes child old with retells | ⟨isStart, same⟩ | ⟨_, isTop⟩
  · by_cases rereads : tree.Rereads start child
    · exact .inr ⟨told rereads, retells.text? old⟩
    · exact .inl ⟨retells, rereads⟩
  · exact .inr ⟨told (.start isStart), same⟩
  · exact absurd (.start (isTop.symm.trans link)) unread

/-- A node that stays shows the same text, by induction on what is below it. -/
theorem sourceText?_eq (reworded : tree.RewordedFrom start replaced other) (linked : tree.Linked)
    (otherLinked : other.Linked) {found : Subtree} (shown : tree.subtree? found.id = some found)
    (stays : Stays tree start other found.id)
    : other.sourceText? found.id = tree.sourceText? found.id := by
  induction found using Subtree.induction with
  | step found ih =>
      have old := lt_size_of_content? (content?_of_shown shown)
      cases told : tree.text? found.id with
      | some text =>
          have same : other.text? found.id = some text := by
            rcases stays with ⟨retells, _⟩ | ⟨_, same⟩
            · rw [retells.text? old, told]
            · rw [same, told]
          rw [linked.sourceText?_of_text? told, otherLinked.sourceText?_of_text? same]
      | none =>
          have ⟨retells, unread⟩ := stays.resolve_right fun texted => by simp [told] at texted
          obtain ⟨now, nowShown⟩ := retells.shown otherLinked old
          have number := subtree?_id nowShown
          have same := retells.rebuilt shown nowShown fun child member =>
            ih child member (subtree?_of_mem_children shown member).1
              (reworded.children_stay unread (linked.parent?_of_mem_children shown member))
          have textless := (text?_of_shown shown).symm.trans told
          have textlessNow := retells.text? old
          rw [told, ← number, text?_of_shown (number ▸ nowShown)] at textlessNow
          rw [sourceText?_of_shown shown, sourceText?, nowShown, Option.map_some,
            Subtree.sourceText_of_textless textless, Subtree.sourceText_of_textless textlessNow, same]

/-- A node that tells the same and in which no change shows has children that tell the same text. -/
theorem rebuilt_eq (reworded : tree.RewordedFrom start replaced other) (linked : tree.Linked)
    (otherLinked : other.Linked) {found now : Subtree} (retells : tree.Retells other found.id)
    (unread : ¬tree.Rereads start found.id)
    (shown : tree.subtree? found.id = some found) (nowShown : other.subtree? found.id = some now)
    : now.rebuilt = found.rebuilt :=
  retells.rebuilt shown nowShown fun _ member =>
    reworded.sourceText?_eq linked otherLinked (subtree?_of_mem_children shown member).1
      (reworded.children_stay unread (linked.parent?_of_mem_children shown member))

/-- A node keeps telling the text that the host gives for it, unless it is the lowest one with such a
text from the first change on upward.
-/
theorem tellsText (reworded : tree.RewordedFrom start replaced other) (linked : tree.Linked)
    (otherLinked : other.Linked) {id : NodeId} (before : id < tree.size → tree.TellsText id)
    (spared : start.bind tree.textedFrom? ≠ some id)
    : other.TellsText id := by
  intro now nowShown quotes children text told
  obtain rfl := subtree?_id nowShown
  have known := content?_of_shown nowShown
  have isKind := kind?_of_shown nowShown
  have toldNow : other.text? now.id = some text := (text?_of_shown nowShown).trans told
  by_cases old : now.id < tree.size
  · have unread (same : other.text? now.id = tree.text? now.id)
        : ¬tree.Rereads start now.id := fun rereads => by
      refine spared (rereads.eq_textedFrom? linked ?_)
      rw [← same, toldNow, Option.isSome_some]
    rcases reworded.nodes now.id old with retells | ⟨isStart, same⟩ | ⟨isReplaced, _⟩
    · obtain ⟨found, shown⟩ := linked.subtree?_exists old
      have number := subtree?_id shown
      have sameKind := (retells.kind? old).symm.trans isKind
      have sameText := (retells.text? old).symm.trans toldNow
      have childrenThen := retells.childIds_ne_nil ⟨now.kind, sameKind, quotes⟩
        (by rwa [← subtree?_children nowShown, ne_eq, List.map_eq_nil_iff])
      have tells := before old found shown
      have unread := unread (retells.text? old)
      rw [← number] at sameKind sameText childrenThen nowShown shown retells unread
      rw [reworded.rebuilt_eq linked otherLinked retells unread shown nowShown]
      refine tells ?_ ?_ text ?_
      · rwa [kind_of_shown shown sameKind]
      · rwa [← subtree?_children shown, ne_eq, List.map_eq_nil_iff] at childrenThen
      · rwa [text?_of_shown shown] at sameText
    · exact absurd (.start isStart) (unread same)
    · rw [Option.some.inj (isKind.symm.trans (reworded.isText now.id isReplaced))] at quotes
      exact absurd quotes (by decide)
  · rcases reworded.fresh now.id now.content (Nat.le_of_not_lt old) known with textless | plain
    · rw [Subtree.text?, textless] at told
      cases told
    · exact absurd quotes (by rw [Subtree.kind, plain]; decide)

end RewordedFrom

end Tree

end TreeLint
