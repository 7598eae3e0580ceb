import TreeLint.Proofs.Rule.Problems
import TreeLint.Proofs.Tree.Shapes

/-! Changes of a tree that make no new problems. Nodes may lose modifiers and parents, declarations
may lose variables and fields may get types, and nodes may be added that have no problems. Whatever
problem of a rule with a fix is in the changed tree was then in the tree before, wherever the node
stands.
-/

namespace TreeLint

/-- What a node says now, against what it said before: it may have lost modifiers. -/
structure Content.Tidies (now before : Content) : Prop where
  kind : now.kind = before.kind
  name : now.name = before.name
  text : now.text = before.text
  facts : now.facts = before.facts
  role : now.role = .extended → before.role = .extended
  modifiers : now.modifiers ⊆ before.modifiers

theorem Content.Tidies.refl (content : Content) : content.Tidies content :=
  ⟨rfl, rfl, rfl, rfl, id, fun _ member => member⟩

theorem Content.Tidies.trans {now middle before : Content} (later : now.Tidies middle)
    (earlier : middle.Tidies before)
    : now.Tidies before where
  kind := later.kind.trans earlier.kind
  name := later.name.trans earlier.name
  text := later.text.trans earlier.text
  facts := later.facts.trans earlier.facts
  role extends_ := earlier.role (later.role extends_)
  modifiers _ member := earlier.modifiers (later.modifiers member)

/-- The node says that it extends the topmost class. -/
def Content.NamesObject (content : Content) : Prop :=
  content.role = .extended ∧ ∃ text ∈ Subtree.objectNames, content.name.or content.text = some text

namespace Tree

-----------------------------------------------------------------------------------------
-- Problems wherever they stand
-----------------------------------------------------------------------------------------

def IsFinal (tree : Tree) (id : NodeId) : Prop :=
  ∃ content, tree.content? id = some content ∧ content.hasModifier .final

/-- The node is a bound of a type parameter that says nothing. -/
def IsObjectBound (tree : Tree) (id : NodeId) : Prop :=
  ∃ parameter content,
    tree.parent? id = some parameter
    ∧ tree.kind? parameter = some .typeParameter
    ∧ tree.content? id = some content
    ∧ content.NamesObject

/-- The node is a call on the result of a call or on a new object. -/
def CallsResult (tree : Tree) (id : NodeId) : Prop :=
  ∃ call, tree.subtree? id = some call ∧ call.CallsResult

-----------------------------------------------------------------------------------------
-- Tidied trees
-----------------------------------------------------------------------------------------

/-- The kinds of nodes that are added. -/
def addedKinds : List NodeKind :=
  [.declarationStatement, .localVariable, .typeElement, .referenceExpression]

/-- The second tree is the first after a change that makes no new problems, unless it be at the
spared calls.
-/
structure Tidied (tree : Tree) (spared : NodeId → Prop) (after : Tree) : Prop where
  contents
    : ∀ id content,
        tree.content? id = some content
        → ∃ now, after.content? id = some now ∧ now.Tidies content
  /-- A node that moved had a parent, and has none or a new one. -/
  parents
    : ∀ id < tree.size,
        after.parent? id = tree.parent? id
        ∨ tree.parent? id ≠ none ∧ ∀ upper, after.parent? id = some upper → tree.size ≤ upper
  shapes : ∀ id, tree.ShapeKept spared after id
  newContents
    : ∀ id content,
        tree.size ≤ id
        → after.content? id = some content
        → content.kind ∈ addedKinds ∧ content.modifiers = [] ∧ content.role ≠ .extended
  newDeclarations
    : ∀ id,
        tree.size ≤ id
        → after.kind? id = some .declarationStatement
        → (after.variablesOf id).drop 1 = []

namespace Tidied

variable {tree middle after : Tree} {spared : NodeId → Prop}

theorem refl (tree : Tree) (spared : NodeId → Prop) : tree.Tidied spared tree where
  contents _ content known := ⟨content, known, .refl content⟩
  parents _ _ := Or.inl rfl
  shapes _ := .of_children rfl fun _ _ => rfl
  newContents _ _ new known := absurd (lt_size_of_content? known) (Nat.not_lt_of_le new)
  newDeclarations _ new isKind := absurd (lt_size_of_kind? isKind) (Nat.not_lt_of_le new)

/-- No node is taken out of the arena. -/
theorem old_lt (tidied : tree.Tidied spared after) {id : NodeId} (old : id < tree.size)
    : id < after.size := by
  obtain ⟨content, before⟩ := content?_exists old
  obtain ⟨_, known, _⟩ := tidied.contents id content before
  exact lt_size_of_content? known

/-- A node that was there is of the kind that it was of. -/
theorem kind?_old (tidied : tree.Tidied spared after) {id : NodeId} (old : id < tree.size)
    : after.kind? id = tree.kind? id := by
  obtain ⟨content, before⟩ := content?_exists old
  obtain ⟨now, known, tidies⟩ := tidied.contents id content before
  rw [kind?, kind?, known, before, Option.map_some, Option.map_some, tidies.kind]

theorem kind?_kept (tidied : tree.Tidied spared after) {id : NodeId} {kind : NodeKind}
    (isKind : tree.kind? id = some kind)
    : after.kind? id = some kind :=
  (tidied.kind?_old (lt_size_of_kind? isKind)).trans isKind

/-- A node of another kind than the new ones was there before, and of that kind. -/
theorem kind?_before (tidied : tree.Tidied spared after) {id : NodeId} {kind : NodeKind}
    (other : kind ∉ addedKinds) (isKind : after.kind? id = some kind)
    : tree.kind? id = some kind := by
  obtain ⟨now, known, rfl⟩ := kind?_eq_some_iff.mp isKind
  have old : id < tree.size := Nat.lt_of_not_le fun new =>
    other (tidied.newContents id now new known).1
  exact (tidied.kind?_old old).symm.trans isKind

/-- A node without a parent gets none. -/
theorem top_kept (tidied : tree.Tidied spared after) {id : NodeId} (old : id < tree.size)
    (top : tree.parent? id = none)
    : after.parent? id = none := by
  rcases tidied.parents id old with same | ⟨hung, _⟩
  · exact same.trans top
  · exact absurd top hung

/-- A link between old nodes was there before. -/
theorem link_before (tidied : tree.Tidied spared after) {upper lower : NodeId}
    (upperOld : upper < tree.size) (lowerOld : lower < tree.size)
    (link : after.parent? lower = some upper)
    : tree.parent? lower = some upper := by
  rcases tidied.parents lower lowerOld with same | ⟨_, elsewhere⟩
  · exact same.symm.trans link
  · exact absurd (elsewhere upper link) (Nat.not_le_of_lt upperOld)

/-- Changes that make no new problems can be made one after the other. -/
theorem trans (first : tree.Tidied spared middle) (second : middle.Tidied spared after)
    : tree.Tidied spared after where
  contents id content before := by
    obtain ⟨between, there, earlier⟩ := first.contents id content before
    obtain ⟨now, known, later⟩ := second.contents id between there
    exact ⟨now, known, later.trans earlier⟩
  parents id old := by
    have grows {upper : NodeId} (new : middle.size ≤ upper) : tree.size ≤ upper :=
      Nat.le_of_not_lt fun smaller => Nat.not_lt_of_le new (first.old_lt smaller)
    rcases first.parents id old with same | ⟨hung, elsewhere⟩
    · rcases second.parents id (first.old_lt old) with still | ⟨hung, elsewhere⟩
      · exact Or.inl (still.trans same)
      · exact Or.inr ⟨same ▸ hung, fun upper up => grows (elsewhere upper up)⟩
    · refine Or.inr ⟨hung, fun upper up => ?_⟩
      rcases second.parents id (first.old_lt old) with still | ⟨_, later⟩
      · exact elsewhere upper (still.symm.trans up)
      · exact grows (later upper up)
  shapes id :=
    { types := fun isField child member isType =>
        (second.shapes id).types (first.kind?_kept isField) child
          ((first.shapes id).types isField child member isType) (first.kind?_kept isType)
      declarations := fun isDeclaration =>
        ((second.shapes id).declarations (first.kind?_kept isDeclaration)).trans
          ((first.shapes id).declarations isDeclaration)
      parentheses := fun around =>
        ((second.shapes id).parentheses (first.kind?_kept around)).trans
          ((first.shapes id).parentheses around)
      receivers := fun isCall apart =>
        ((second.shapes id).receivers (first.kind?_kept isCall) apart).trans
          ((first.shapes id).receivers isCall apart) }
  newContents id now new known := by
    by_cases old : id < middle.size
    · obtain ⟨between, there⟩ := content?_exists old
      obtain ⟨added, plain, notExtended⟩ := first.newContents id between new there
      obtain ⟨same, sameKnown, tidies⟩ := second.contents id between there
      cases known.symm.trans sameKnown
      refine ⟨tidies.kind ▸ added, ?_, fun extends_ => notExtended (tidies.role extends_)⟩
      exact List.subset_nil.mp (plain ▸ tidies.modifiers)
    · exact second.newContents id now (Nat.le_of_not_lt old) known
  newDeclarations id new isDeclaration := by
    by_cases old : id < middle.size
    · have wasDeclaration := (second.kind?_old old).symm.trans isDeclaration
      have fewer := (second.shapes id).declarations wasDeclaration
      rw [first.newDeclarations id new wasDeclaration] at fewer
      exact List.sublist_nil.mp fewer
    · exact second.newDeclarations id (Nat.le_of_not_lt old) isDeclaration

-----------------------------------------------------------------------------------------
-- Problems that were there before
-----------------------------------------------------------------------------------------

/-- No declaration becomes final. -/
theorem isFinal_before (tidied : tree.Tidied spared after) {id : NodeId}
    (isFinal : after.IsFinal id)
    : tree.IsFinal id := by
  obtain ⟨now, known, final⟩ := isFinal
  rw [Content.hasModifier, List.contains_iff_mem] at final
  have old : id < tree.size := by
    refine Nat.lt_of_not_le fun new => ?_
    rw [(tidied.newContents id now new known).2.1] at final
    cases final
  obtain ⟨content, before⟩ := content?_exists old
  obtain ⟨same, sameKnown, tidies⟩ := tidied.contents id content before
  cases known.symm.trans sameKnown
  exact ⟨content, before, List.contains_iff_mem.mpr (tidies.modifiers final)⟩

/-- No node becomes a bound that says nothing. -/
theorem isObjectBound_before (tidied : tree.Tidied spared after) {id : NodeId}
    (isBound : after.IsObjectBound id)
    : tree.IsObjectBound id := by
  obtain ⟨parameter, now, up, isParameter, known, extends_, text, isObject, named⟩ := isBound
  have wasParameter := tidied.kind?_before (by decide) isParameter
  have old : id < tree.size := Nat.lt_of_not_le fun new =>
    (tidied.newContents id now new known).2.2 extends_
  obtain ⟨content, before⟩ := content?_exists old
  obtain ⟨same, sameKnown, tidies⟩ := tidied.contents id content before
  cases known.symm.trans sameKnown
  rw [tidies.name, tidies.text] at named
  exact ⟨parameter, content, tidied.link_before (lt_size_of_kind? wasParameter) old up,
    wasParameter, before, tidies.role extends_, text, isObject, named⟩

/-- No field loses its type. -/
theorem bareField_before (tidied : tree.Tidied spared after) {id : NodeId}
    (bare : after.BareField id)
    : tree.BareField id := by
  have wasField := tidied.kind?_before (by decide) bare.1
  refine ⟨wasField, fun child member isType => ?_⟩
  exact bare.2 child ((tidied.shapes id).types wasField child member isType) (tidied.kind?_kept isType)

/-- No variable comes to stand behind another one. -/
theorem standsBehind_before (tidied : tree.Tidied spared after) {declaration id : NodeId}
    (behind : after.StandsBehind declaration id)
    : tree.StandsBehind declaration id := by
  obtain ⟨isDeclaration, listed⟩ := standsBehind_iff.mp behind
  have old : declaration < tree.size := by
    refine Nat.lt_of_not_le fun new => ?_
    rw [tidied.newDeclarations declaration new isDeclaration] at listed
    cases listed
  have wasDeclaration := (tidied.kind?_old old).symm.trans isDeclaration
  exact standsBehind_iff.mpr
    ⟨wasDeclaration, ((tidied.shapes declaration).declarations wasDeclaration).subset listed⟩

/-- No call that is not spared comes to call the result of a call. -/
theorem callsResult_before (tidied : tree.Tidied spared after) (linked : tree.Linked)
    {id : NodeId} (apart : ¬spared id) (calls : after.CallsResult id)
    : tree.CallsResult id := by
  obtain ⟨now, nowShown, isCall, nowReceiver, found, kind⟩ := calls
  obtain rfl := subtree?_id nowShown
  have nowCall : after.kind? now.id = some .methodCall :=
    (kind?_of_shown nowShown).trans (congrArg some isCall)
  have wasCall := tidied.kind?_before (by decide) nowCall
  obtain ⟨call, shown⟩ := linked.subtree?_exists (lt_size_of_kind? wasCall)
  have same := subtree?_id shown
  rw [← same] at shown wasCall
  have receivers := (tidied.shapes call.id).receivers wasCall (same ▸ apart)
  obtain ⟨receiver, foundBefore, number, inside, nowInside⟩ :=
    childWithRole?_before shown nowShown same.symm receivers found
  refine ⟨call, same ▸ shown, ?_, receiver, foundBefore, ?_⟩
  · exact kind_of_shown shown wasCall
  · have alike : ∀ other < tree.size,
        SeenAlike [NodeKind.methodCall, .newExpression].contains tree after other := by
      intro other old
      obtain ⟨content, before⟩ := content?_exists old
      have isKind : tree.kind? other = some content.kind := by rw [kind?, before, Option.map_some]
      exact ⟨content.kind, content.kind, isKind, tidied.kind?_kept isKind, rfl, Iff.rfl,
        fun around => (tidied.shapes other).parentheses (isKind.trans (congrArg some around))⟩
    have tested := stripParentheses_alike alike inside nowInside number
    rw [List.contains_iff_mem.mpr kind] at tested
    exact List.contains_iff_mem.mp tested.symm

end Tidied

end Tree

end TreeLint
