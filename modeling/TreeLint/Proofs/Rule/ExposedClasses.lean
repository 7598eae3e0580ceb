import TreeLint.Proofs.Fix.NamedClasses
import TreeLint.Proofs.Fix.Reachability
import TreeLint.Proofs.Rule.ClassProblems
import TreeLint.Proofs.Rule.Diagnostics
import TreeLint.Proofs.Tree.Agreement

/-! Classes that may be serialized, before and after an anonymous one gets a name. The members come
to the new class as they were, so what keeps a class from being serialized, or fails to, comes with
them; what the host knows of the class does not. Main result: the new class is never reported, and
would be as soon as its facts named the type that the old ones do.
-/

namespace TreeLint

open Relation

-----------------------------------------------------------------------------------------
-- What is reported about a class
-----------------------------------------------------------------------------------------

/-- The facts are not those of an interface, and name the type of what may be serialized among the
supertypes.
-/
def Facts.NamesSerializable (facts : Facts) : Prop :=
  facts.classKind ∉ [.interface, .annotationType] ∧ "java.io.Serializable" ∈ facts.supertypes

theorem Subtree.isSerializable_iff (node : Subtree)
    : node.isSerializable
      ↔ node.facts.NamesSerializable ∧ node.blocksSerialization = false := by
  simp [isSerializable, isInterface, Facts.NamesSerializable]

/-- A class with no other methods than one that can be serialized does not block it either. -/
theorem Subtree.blocksSerialization_of_fewer {node other : Subtree}
    (fewer : ∀ child ∈ node.children, child.kind = .method → child ∈ other.children)
    (free : other.blocksSerialization = false)
    : node.blocksSerialization = false := by
  simp only [blocksSerialization, childrenOfKind, List.any_eq_false, List.mem_filter,
    beq_iff_eq] at free ⊢
  rintro method ⟨member, isMethod⟩
  exact free method ⟨fewer method member isMethod, isMethod⟩

/-- What is reported about a class that may be serialized: the base of an anonymous class, or else
the class itself.
-/
def Subtree.exposed (node : Subtree) : List Subtree :=
  if node.isSerializable then
    if node.kind = .anonymousClass then [(node.childWithRole? .baseClass).getD node] else [node]
  else
    []

theorem Subtree.mem_exposed {node anchor : Subtree} (member : anchor ∈ node.exposed)
    : node.isSerializable
      ∧ (anchor = node ∨ anchor ∈ node.children ∧ anchor.role = .baseClass) := by
  rw [exposed] at member
  split at member
  · next serializable =>
      refine ⟨serializable, ?_⟩
      split at member
      · cases found : node.childWithRole? .baseClass with
        | none =>
            left
            simpa [found] using member
        | some base =>
            right
            obtain rfl : anchor = base := by simpa [found] using member
            exact ⟨List.mem_of_find?_eq_some found, by simpa using List.find?_some found⟩
      · exact .inl (List.mem_singleton.mp member)
  · cases member

namespace Rule

variable {tree : Tree}

theorem reactionFor?_serializable (context : PassContext) (kind : NodeKind)
    : serializableClassInSecureContext.checker.reactionFor? context kind
      = if kind.isClass then
          some (.stop fun node => if node.id = context.scope.root then node.exposed else [])
        else
          none := by
  have reports : (fun node : Subtree => if node.id = context.scope.root then node.exposed else [])
      = fun node =>
          if node.id = context.scope.root && node.isSerializable then
            if node.kind = .anonymousClass then
              [(node.childWithRole? .baseClass).getD node]
            else
              [node]
          else
            [] := by
    funext node
    by_cases isRoot : node.id = context.scope.root <;> simp [isRoot, Subtree.exposed]
  rw [reports]
  cases kind <;> rfl

/-- The walk of a class reports what is exposed of it, and looks at nothing below. -/
theorem found_serializable (context : PassContext) {node : Subtree}
    (isRoot : node.id = context.scope.root) (isClass : node.kind.isClass) (around : Surroundings)
    : serializableClassInSecureContext.checker.found context node around = node.exposed := by
  rw [Checker.found_eq, Checker.stepAt, reactionFor?_serializable, if_pos isClass]
  exact if_pos isRoot

theorem anchorsIn_serializable {node : Subtree} (shown : tree.subtree? node.id = some node)
    (isClass : node.kind.isClass)
    : serializableClassInSecureContext.anchorsIn tree ⟨.classScope, node.id⟩
      = node.exposed := by
  rw [anchorsIn, shown]
  exact found_serializable _ rfl isClass _

/-- Classes are what makes the scopes of classes. -/
theorem isClass_iff_isScope {kind : NodeKind}
    : kind.isClass ↔ ScopeKind.ofNodeKind? kind = some .classScope := by
  cases kind <;> decide

/-- A class that something is reported about may be serialized. -/
theorem isSerializable_of_reported (linked : tree.Linked) {node : Subtree}
    (shown : tree.subtree? node.id = some node) (isClass : node.kind.isClass)
    {options : PassOptions} {flag : Option CancelFlag} (idle : ∀ held ∈ flag, held = { })
    {diagnostic : Diagnostic}
    (reported
      : diagnostic
        ∈ (Inspection.inspectScope serializableClassInSecureContext
            { tree, scope := ⟨.classScope, node.id⟩, options } flag).reported)
    : node.isSerializable := by
  rw [inspectScope_eq _ linked idle, anchorsIn_serializable shown isClass] at reported
  obtain ⟨anchor, among, _⟩ := List.mem_map.mp reported
  exact (Subtree.mem_exposed among).1

/-- The nodes reported are what is exposed of the attached classes. -/
theorem mem_anchors_serializable {id : NodeId}
    : id ∈ (serializableClassInSecureContext.anchors tree).map Subtree.id
      ↔ ∃ node : Subtree,
          node.id ∈ tree.preorder
          ∧ tree.subtree? node.id = some node
          ∧ node.kind.isClass
          ∧ id ∈ node.exposed.map Subtree.id := by
  simp only [List.mem_map, mem_anchors_iff]
  constructor
  · rintro ⟨anchor, ⟨node, scope, among, attached, shown, isScope, member⟩, rfl⟩
    cases List.mem_singleton.mp among
    have isClass := isClass_iff_isScope.mpr isScope
    rw [found_serializable _ rfl isClass] at member
    exact ⟨node, attached, shown, isClass, anchor, member, rfl⟩
  · rintro ⟨node, attached, shown, isClass, anchor, member, rfl⟩
    refine ⟨anchor, ⟨node, .classScope, List.mem_singleton.mpr rfl, attached, shown,
      isClass_iff_isScope.mp isClass, ?_⟩, rfl⟩
    rwa [found_serializable _ rfl isClass]

/-- A named class that is no base of another one is reported if it is attached and may be
serialized.
-/
theorem reports_namedClass_iff (coherent : tree.Coherent) {node : Subtree}
    (shown : tree.subtree? node.id = some node) (isNamed : node.kind = .namedClass)
    (noBase : node.role ≠ .baseClass) (options : PassOptions) {flag : Option CancelFlag}
    (idle : ∀ held ∈ flag, held = { })
    : (∃ diagnostic
          ∈ (Inspection.inspectTree serializableClassInSecureContext tree options flag).reported,
        diagnostic.anchor = node.id)
      ↔ tree.Attached node.id ∧ node.isSerializable := by
  rw [← List.mem_map, inspectTree_anchors _ coherent.toLinked options idle,
    mem_anchors_serializable, coherent.attached_iff]
  constructor
  · rintro ⟨root, attached, rootShown, isClass, member⟩
    obtain ⟨anchor, among, same⟩ := List.mem_map.mp member
    obtain ⟨serializable, rfl | ⟨below, isBase⟩⟩ := Subtree.mem_exposed among
    · rw [same, shown] at rootShown
      cases rootShown
      exact ⟨attached, serializable⟩
    · have anchorShown := (Tree.subtree?_of_mem_children rootShown below).1
      rw [same, shown] at anchorShown
      cases anchorShown
      exact absurd isBase noBase
  · rintro ⟨attached, serializable⟩
    refine ⟨node, attached, shown, by rw [isNamed]; rfl, ?_⟩
    simp [Subtree.exposed, serializable, isNamed]

end Rule

-----------------------------------------------------------------------------------------
-- The class with a name
-----------------------------------------------------------------------------------------

namespace Tree

variable {tree after : Tree}

/-- Another content of a node leaves what is below the node. -/
theorem Coherent.subtree?_reword (coherent : tree.Coherent) {node : Subtree}
    (shown : tree.subtree? node.id = some node) (f : Content → Content)
    : (tree.reword node.id f).subtree? node.id
      = some (.mk node.id (f node.content) node.children) := by
  have linked := (coherent.reword node.id f).toLinked
  refine linked.subtree?_of_children ?_ ?_ fun child member => ?_
  · simp [reword_content?, content?_of_shown shown]
  · rw [reword_childIds, subtree?_children shown]
  · refine coherent.subtree?_of_same linked (subtree?_of_mem_children shown member).1 ?_
    intro lower way
    refine ⟨?_, reword_childIds tree node.id f lower⟩
    rw [reword_content?, if_neg]
    rintro rfl
    exact coherent.acyclic _ (TransGen.head' (coherent.parent?_of_mem_children shown member) way)

/-- Another content of a node leaves what is attached. -/
theorem reword_attached_iff (tree : Tree) (id : NodeId) (f : Content → Content) {other : NodeId}
    : (tree.reword id f).Attached other ↔ tree.Attached other := by
  have links : (tree.reword id f).IsParent = tree.IsParent := by
    funext upper lower
    rw [IsParent, IsParent, reword_parent?]
  rw [Attached, Attached, reword_root, links]

section Moved

variable {filled : Tree} {anonymous : Subtree} {creation outer : NodeId} {name base text : String}
  (coherent : tree.Coherent) (created : tree.parent? anonymous.id = some creation)
  (around : tree.Above outer anonymous.id)
  (moved
    : (tree.grow (Fix.innerClassOutline name base)).MovedInto anonymous.id tree.size
        (Fix.movedMembers anonymous) filled)
  (hangable : filled.Hangable outer tree.size)
  (isAfter
    : after
      = (filled.hang outer (filled.childIds outer).length tree.size).fragment creation text)

include coherent created around moved hangable isAfter

/-- What is below an anonymous class is what it was once the class has its name. -/
theorem Coherent.sameNode_of_moved {id : NodeId} (below : tree.Above anonymous.id id)
    : tree.SameNode after id := by
  have old := (coherent.above_lt below).2
  have notCreation : id ≠ creation := by
    rintro rfl
    exact coherent.acyclic _ (.head created below)
  have notOuter : id ≠ outer := by
    rintro rfl
    exact coherent.acyclic _ (around.trans below)
  have notAnonymous : id ≠ anonymous.id := by
    rintro rfl
    exact coherent.acyclic _ below
  rw [isAfter]
  constructor
  · rw [moved.content?_at_end, if_neg notCreation, grow_content?_of_lt old]
  · rw [hangable.childIds_at_end, if_neg notCreation, if_neg notOuter,
      moved.children _ notAnonymous (Nat.ne_of_lt old), grow_childIds_of_lt old]

omit around hangable in
/-- The new nodes say what they said when they were added. -/
theorem Coherent.content?_of_moved (i : Nat)
    : after.content? (tree.size + i) = (Fix.innerClassOutline name base).contents[i]? := by
  have new : tree.size + i ≠ creation :=
    Nat.ne_of_gt (Nat.lt_add_right i (coherent.parent_lt created))
  rw [isAfter, moved.content?_at_end, if_neg new]
  exact tree.grow_content?_add _ i

/-- Nothing is below the base of the new class. -/
theorem Coherent.base_childIds_of_moved : after.childIds (tree.size + 1) = [] := by
  have later {id : NodeId} (old : id < tree.size) : tree.size + 1 ≠ id :=
    Nat.ne_of_gt (Nat.lt_succ_of_lt old)
  rw [isAfter, hangable.childIds_at_end, if_neg (later (coherent.parent_lt created)),
    if_neg (later (coherent.above_lt around).1),
    moved.children _ (later (lt_size_of_parent? created)) (Nat.succ_ne_self _), childIds,
    tree.grow_node?_add _ 1]
  rfl

end Moved

end Tree

/-- The subtree of the class that gets the members of an anonymous one. -/
def Subtree.named (anonymous : Subtree) (id : NodeId) (name base : String) : Subtree :=
  .mk id (Fix.innerClassOutline name base).content <|
    .mk (id + 1) ((Outline.reference base).withRole .extended).content []
      :: anonymous.children.filter (·.role != .baseClass)

namespace Fix

open TreeLint.Tree

variable {tree after : Tree} {anchor : NodeId}

/-- The new class is shown with the members of the anonymous one, as they were. -/
theorem nameInnerClass_shows (coherent : tree.Coherent)
    (succeeded : (nameInnerClass.applyAt anchor).apply tree = (.ok (), after))
    : ∃ anonymous name base,
        tree.parent? anchor = some anonymous.id
        ∧ tree.subtree? anonymous.id = some anonymous
        ∧ after.subtree? tree.size = some (anonymous.named tree.size name base) := by
  have afterCoherent := coherent_of_applyAt coherent succeeded
  obtain ⟨base, anonymous, creation, outer, filled, _, up, shown, _, created, around, _, fills,
    hangable, isAfter⟩ := nameInnerClass_steps coherent succeeded
  have moved := moveMembers_succeeded shown coherent fills
  have above := enclosingClass?_above coherent.toLinked around
  have later {id : NodeId} (old : id < tree.size) : tree.size ≠ id := Nat.ne_of_gt old
  refine ⟨anonymous, innerClassName outer base.shownText, base.shownText, up, shown, ?_⟩
  refine afterCoherent.subtree?_of_children
    (coherent.content?_of_moved created moved isAfter 0) ?_ fun child member => ?_
  · rw [isAfter, hangable.childIds_at_end, if_neg (later (coherent.parent_lt created)),
      if_neg (later (coherent.above_lt above).1), (moveMembers_childIds shown coherent fills).1]
    rfl
  · rcases List.mem_cons.mp member with rfl | member
    · exact afterCoherent.subtree?_of_children
        (coherent.content?_of_moved created moved isAfter 1)
        (coherent.base_childIds_of_moved created above moved hangable isAfter) nofun
    · have among := List.mem_of_mem_filter member
      have below := coherent.parent?_of_mem_children shown among
      refine coherent.subtree?_of_same afterCoherent.toLinked
        (subtree?_of_mem_children shown among).1 fun id way => ?_
      exact coherent.sameNode_of_moved created above moved hangable isAfter
        (TransGen.head' below way)

/-- Whatever it says of itself, the new class has no other methods than the anonymous one. -/
theorem named_blocks_no_more {old : Subtree} (free : old.blocksSerialization = false) (id : NodeId)
    (content : Content) (name base : String)
    : (Subtree.mk id content (old.named id name base).children).blocksSerialization = false := by
  refine Subtree.blocksSerialization_of_fewer (fun child member isMethod => ?_) free
  rcases List.mem_cons.mp member with rfl | member
  · cases isMethod
  · exact List.mem_of_mem_filter member

/-- When an anonymous class that is reported gets a name, its members come to the new class, but not
its facts. The new class is not reported. With other facts it is exactly if it is attached and these
name the type. It is attached unless the anonymous class hung below a class, and the facts of the
anonymous class name the type.
-/
theorem nameInnerClass_exposed_iff (reachable : tree.Reachable) {anonymous : NodeId}
    {options : PassOptions} {flag : Option CancelFlag} (idle : ∀ held ∈ flag, held = { })
    (listed
      : ⟨.classScope, anonymous⟩
        ∈ Scope.collect tree Rule.serializableClassInSecureContext.profile.scopes)
    {diagnostic : Diagnostic}
    (reported
      : diagnostic
        ∈ (Inspection.inspectScope Rule.serializableClassInSecureContext
            { tree, scope := ⟨.classScope, anonymous⟩, options } flag).reported)
    (hangs : tree.parent? diagnostic.anchor = some anonymous)
    (succeeded : (nameInnerClass.applyAt diagnostic.anchor).apply tree = (.ok (), after))
    : (∀ told
          ∈ (Inspection.inspectTree Rule.serializableClassInSecureContext after options
              flag).reported,
        told.anchor ≠ tree.size)
      ∧ (∀ facts : Facts,
          (∃ told
              ∈ (Inspection.inspectTree Rule.serializableClassInSecureContext
                  (after.reword tree.size ({ · with facts })) options flag).reported,
            told.anchor = tree.size)
          ↔ after.Attached tree.size ∧ facts.NamesSerializable)
      ∧ ∀ content creation,
          tree.content? anonymous = some content
          → tree.parent? anonymous = some creation
          → tree.isClassAt creation = false
          → after.Attached tree.size ∧ content.facts.NamesSerializable := by
  have coherent := reachable.coherent
  have afterCoherent := coherent_of_applyAt coherent succeeded
  obtain ⟨old, name, base, up, oldShown, shown⟩ := nameInnerClass_shows coherent succeeded
  cases up.symm.trans hangs
  obtain ⟨listedAttached, _, kind, isKind, isScope⟩ := Scope.mem_collect_iff.mp listed
  have isClass : old.kind.isClass := by
    cases (kind?_of_shown oldShown).symm.trans isKind
    exact Rule.isClass_iff_isScope.mpr isScope
  obtain ⟨named, free⟩ := old.isSerializable_iff.mp <|
    Rule.isSerializable_of_reported coherent.toLinked oldShown isClass idle reported
  have attached : tree.Attached old.id := coherent.attached_iff.mpr listedAttached
  let new := old.named tree.size name base
  have newShown : after.subtree? new.id = some new := shown
  refine ⟨?_, fun facts => ?_, fun content creation known created noClass => ?_⟩
  · intro told among isNew
    obtain ⟨_, serializable⟩ :=
      (Rule.reports_namedClass_iff afterCoherent newShown rfl nofun options idle).mp
        ⟨told, among, isNew⟩
    exact absurd (new.isSerializable_iff.mp serializable).1.2 List.not_mem_nil
  · let known : Subtree := .mk tree.size { new.content with facts } new.children
    have knownShown
        : (after.reword tree.size ({ · with facts })).subtree? known.id = some known :=
      afterCoherent.subtree?_reword newShown ({ · with facts })
    have blocks : known.blocksSerialization = false := named_blocks_no_more free _ _ name base
    have serializable : known.isSerializable ↔ facts.NamesSerializable :=
      known.isSerializable_iff.trans (and_iff_left blocks)
    have exposed := Rule.reports_namedClass_iff (afterCoherent.reword _ _) knownShown rfl nofun
      options idle
    exact exposed.trans (and_congr (reword_attached_iff _ _ _) serializable)
  · obtain ⟨_, outer, _, _, _, made⟩ :=
      nameInnerClass_makes coherent (attached.tail hangs) hangs created noClass succeeded
    cases known.symm.trans (content?_of_shown oldShown)
    refine ⟨(made.attached _).mpr (.inr ⟨Nat.le_refl _, ?_⟩), named⟩
    exact Nat.lt_add_of_pos_right (by decide)

end Fix

/-- A file with a method that creates an object of an anonymous class that may be serialized. -/
def secretCreation : Document where
  root :=
    Outline.file.withChild <| (Outline.namedClass "A").withChild <|
      (Outline.method "m").withChild <| Outline.codeBlock.withChild <|
        Outline.expressionStatement <| ((Outline.ofKind .newExpression).named "Secret").withChild <|
          ((Outline.anonymousClass "Secret").withSupertype "java.io.Serializable").withChild
            (Outline.method "n")

/-- The file with a name for the anonymous class. -/
def secretNamed : Tree :=
  ((Fix.nameInnerClass.applyAt 7).apply (.ofDocument secretCreation)).2

theorem secretNamed_applied
    : (Fix.nameInnerClass.applyAt 7).apply (.ofDocument secretCreation) = (.ok (), secretNamed) :=
  Prod.ext (by decide +kernel) rfl

/-- The class is reported before it has a name, and nothing is after. -/
theorem secretNamed_silent
    : let rule := Rule.serializableClassInSecureContext
      (∃ told ∈ (Inspection.inspectTree rule (.ofDocument secretCreation) { } none).reported,
        told.anchor = 7)
      ∧ (Tree.ofDocument secretCreation).childAt? 6 .baseClass = some 7
      ∧ (Fix.nameInnerClass.applyAt 7).apply (.ofDocument secretCreation) = (.ok (), secretNamed)
      ∧ secretNamed.kind? 9 = some .namedClass
      ∧ (Inspection.inspectTree rule secretNamed { } none).reported = [] := by
  intro rule
  obtain ⟨told, among, anchor, _⟩ : ∃ told
      ∈ (Inspection.inspectTree rule (.ofDocument secretCreation) { } none).reported,
      told.anchor = 7 ∧ told.fix = none :=
    Diagnostic.exists_listed (by decide +kernel)
  exact ⟨⟨told, among, anchor⟩, by decide +kernel, secretNamed_applied, by decide +kernel,
    by decide +kernel⟩

/-- With the facts of the anonymous class, the new one is reported. -/
theorem secretNamed_exposed
    : ∃ told
        ∈ (Inspection.inspectTree Rule.serializableClassInSecureContext
            (secretNamed.reword 9 ({ · with facts := { supertypes := ["java.io.Serializable"] } }))
            { } none).reported,
      told.anchor = 9 := by
  obtain ⟨told, among, anchor, _⟩ : ∃ told
      ∈ (Inspection.inspectScope Rule.serializableClassInSecureContext
          { tree := .ofDocument secretCreation, scope := ⟨.classScope, 6⟩ } none).reported,
      told.anchor = 7 ∧ told.fix = none :=
    Diagnostic.exists_listed (by decide +kernel)
  have hangs : (Tree.ofDocument secretCreation).parent? told.anchor = some 6 := by
    rw [anchor]
    decide +kernel
  have succeeded
      : (Fix.nameInnerClass.applyAt told.anchor).apply (.ofDocument secretCreation)
        = (.ok (), secretNamed) := by
    rw [anchor]
    exact secretNamed_applied
  obtain ⟨_, exposed, attached⟩ :=
    Fix.nameInnerClass_exposed_iff (.loaded secretCreation) (by simp) (by decide +kernel) among
      hangs succeeded
  have size : (Tree.ofDocument secretCreation).size = 9 := by decide +kernel
  rw [size] at exposed attached
  have facts : ((Tree.ofDocument secretCreation).content? 6).map (·.facts)
      = some { supertypes := ["java.io.Serializable"] } := by
    decide +kernel
  obtain ⟨content, known, isFacts⟩ := Option.map_eq_some_iff.mp facts
  have named := attached content 5 known (by decide +kernel) (by decide +kernel)
  rw [isFacts] at named
  exact (exposed _).mpr named

end TreeLint
