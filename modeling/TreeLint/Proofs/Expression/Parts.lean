import Mathlib.Logic.Relation
import TreeLint.Outline.Builder
import TreeLint.Proofs.Fix.Reachability
import TreeLint.Proofs.Tree.Texts

/-! What the rebuilt text of an expression shows of its parts. Main result: the text holds the texts
of all parts in their order, and with them those of the parts of parts, as long as no creation with
arguments is among them; the text of a creation holds its arguments by accident only.
-/

namespace TreeLint

open Relation

-----------------------------------------------------------------------------------------
-- Texts inside a text
-----------------------------------------------------------------------------------------

/-- The texts stand in another one, each of them behind the one before it. -/
def StandIn : List String → String → Prop
  | [], _ => True
  | text :: rest, whole =>
      ∃ before behind, whole = before ++ (text ++ behind) ∧ StandIn rest behind

namespace StandIn

variable {texts others : List String} {whole other text : String}

theorem behind (before : String) (standIn : StandIn texts whole)
    : StandIn texts (before ++ whole) := by
  cases texts with
  | nil => trivial
  | cons text rest =>
      obtain ⟨front, back, rfl, more⟩ := standIn
      exact ⟨before ++ front, back, String.append_assoc.symm, more⟩

/-- Texts that stand in two texts stand in these put together, by induction on the first ones. -/
theorem append (first : StandIn texts whole) (second : StandIn others other)
    : StandIn (texts ++ others) (whole ++ other) := by
  induction texts generalizing whole with
  | nil => exact second.behind whole
  | cons text rest ih =>
      obtain ⟨before, behind, rfl, more⟩ := first
      refine ⟨before, behind ++ other, ?_, ih more⟩
      rw [String.append_assoc, String.append_assoc]

theorem before (behind : String) (standIn : StandIn texts whole)
    : StandIn texts (whole ++ behind) := by
  have both := standIn.append (show StandIn [] behind from trivial)
  rwa [List.append_nil] at both

theorem self (text : String) : StandIn [text] text :=
  ⟨"", "", by rw [String.append_empty, String.empty_append], trivial⟩

/-- A text that need not be there stands in itself. -/
theorem option (text? : Option String) : StandIn text?.toList (text?.getD "") := by
  cases text? with
  | none => trivial
  | some text => exact self text

/-- Texts stand in the text that joins them, by induction on the list. -/
theorem intercalate (separator : String) (texts : List String)
    : StandIn texts (separator.intercalate texts) := by
  induction texts with
  | nil => trivial
  | cons text rest ih =>
      cases rest with
      | nil =>
          rw [String.intercalate_singleton]
          exact self text
      | cons next rest =>
          rw [String.intercalate_cons_cons]
          exact ((self text).before separator).append ih

/-- Each of the texts is found in the text, by induction on those in front of it. -/
theorem infix_of_mem (standIn : StandIn texts whole) (member : text ∈ texts)
    : text.toList <:+: whole.toList := by
  induction texts generalizing whole with
  | nil => exact nomatch member
  | cons first rest ih =>
      obtain ⟨before, behind, rfl, more⟩ := standIn
      rcases List.mem_cons.mp member with rfl | member
      · exact ⟨before.toList, behind.toList, by simp⟩
      · obtain ⟨front, back, found⟩ := ih more member
        exact ⟨before.toList ++ first.toList ++ front, back, by simp [← found]⟩

end StandIn

-----------------------------------------------------------------------------------------
-- Parts of expressions
-----------------------------------------------------------------------------------------

namespace Subtree

variable {node lower : Subtree}

/-- The parts of an expression in the order in which the construct has them. -/
def parts (node : Subtree) : List Subtree :=
  match node.kind with
  | .binaryExpression => (node.childWithRole? .lhs).toList ++ (node.childWithRole? .rhs).toList
  | .methodCall => (node.childWithRole? .qualifier).toList ++ node.childrenWithRole .argument
  | .referenceExpression => (node.childWithRole? .qualifier).toList
  | .newExpression => node.childrenWithRole .argument
  | .parenthesizedExpression => node.children.head?.toList
  | _ => []

/-- What is written for a creation that has no text of the host. -/
def creationText (node : Subtree) : String :=
  "new " ++ node.name?.getD "" ++ "()"

/-- The node is written with the second one inside: the host gives no text for the first, which has
the second for a part and is no creation.
-/
def WrittenWith (node lower : Subtree) : Prop :=
  node.text? = none ∧ node.kind ≠ .newExpression ∧ lower ∈ node.parts

/-- The texts of the arguments are those of the children with that role. -/
theorem argument_texts (node : Subtree)
    : ((node.children.map fun child => (child, child.sourceText)).filter
        (·.1.role == .argument)).map (·.2)
      = (node.childrenWithRole .argument).map sourceText := by
  rw [List.filter_map, List.map_map]
  rfl

/-- Behind a qualifier, if there is one, stands the member. -/
theorem standIn_qualify {texts : List String} {member : String} (qualifier? : Option Subtree)
    (standIn : StandIn texts member)
    : StandIn (qualifier?.toList.map sourceText ++ texts)
        (qualify (qualifier?.map sourceText) member) := by
  cases qualifier? with
  | none => exact standIn
  | some qualifier => exact ((StandIn.self qualifier.sourceText).before ".").append standIn

/-- The text that children tell of a node holds those of the parts, unless the node is a creation.
By cases on the kinds with parts.
-/
theorem standIn_rebuilt (noCreation : node.kind ≠ .newExpression)
    : StandIn (node.parts.map sourceText) node.rebuilt := by
  rw [parts, rebuilt, rebuild]
  cases kind : node.kind with
  | binaryExpression =>
      simp only [valueAt?_texts, List.map_append, ← Option.toList_map]
      exact ((((StandIn.option _).before " ").before _).before " ").append (StandIn.option _)
  | methodCall =>
      simp only [valueAt?_texts, argument_texts, List.map_append]
      exact standIn_qualify _ (((StandIn.intercalate ", " _).behind _).before ")")
  | referenceExpression =>
      simp only [valueAt?_texts]
      have alone : StandIn [] (node.name?.getD "") := trivial
      simpa only [List.append_nil] using standIn_qualify (node.childWithRole? .qualifier) alone
  | newExpression => exact absurd kind noCreation
  | parenthesizedExpression =>
      cases node.children with
      | nil => trivial
      | cons inner rest => exact ((StandIn.self inner.sourceText).behind "(").before ")"
  | _ => trivial

/-- The arguments of a creation are not written. -/
theorem rebuilt_creation (isCreation : node.kind = .newExpression)
    : node.rebuilt = node.creationText := by
  rw [rebuilt, rebuild, isCreation, creationText]

/-- The text of a node holds those of the parts that it is written with. -/
theorem WrittenWith.infix (written : node.WrittenWith lower)
    : lower.sourceText.toList <:+: node.sourceText.toList := by
  obtain ⟨textless, noCreation, member⟩ := written
  rw [sourceText_of_textless textless]
  exact (standIn_rebuilt noCreation).infix_of_mem (List.mem_map_of_mem member)

/-- The text of a node holds those of the parts of its parts, by induction on the way to them. -/
theorem writtenWith_infix (way : ReflTransGen WrittenWith node lower)
    : lower.sourceText.toList <:+: node.sourceText.toList := by
  induction way with
  | refl => exact List.infix_rfl
  | tail _ last ih => exact last.infix.trans ih

end Subtree

open Subtree

/-- Every node of a reachable tree that has no text of the host is written with the texts of its
parts in their order exactly if it is no creation that needs more than its name to show its
arguments. What is a part of parts, without a creation or a text of the host on the way, is in the
text of the node.
-/
theorem Tree.showsParts_iff {tree : Tree} (reachable : tree.Reachable) {id : NodeId}
    (present : tree.contains id)
    : ∃ node,
        tree.subtree? id = some node
        ∧ (node.text? = none
          → (StandIn (node.parts.map sourceText) node.sourceText
              ↔ (node.kind = .newExpression
                → StandIn (node.parts.map sourceText) node.creationText))
            ∧ (node.kind = .newExpression → node.sourceText = node.creationText))
        ∧ ∀ lower,
            ReflTransGen WrittenWith node lower
            → lower.sourceText.toList <:+: node.sourceText.toList := by
  obtain ⟨node, shown⟩ := reachable.coherent.subtree?_exists (contains_iff.mp present)
  refine ⟨node, shown, fun textless => ?_, fun lower => writtenWith_infix⟩
  rw [sourceText_of_textless textless]
  refine ⟨⟨fun standIn isCreation => ?_, fun creation => ?_⟩, rebuilt_creation⟩
  · rwa [← rebuilt_creation isCreation]
  · by_cases isCreation : node.kind = .newExpression
    · rw [rebuilt_creation isCreation]
      exact creation isCreation
    · exact standIn_rebuilt isCreation

/-- A file with a call, one argument of which is a creation with an argument. -/
def creationAsArgument : Document where
  root :=
    Outline.file.withChild <| (Outline.namedClass "A").withChild <|
      (Outline.method "m").withChild <| Outline.codeBlock.withChild <|
        Outline.expressionStatement <|
          ((Outline.call "put" (some (Outline.referenceExpression "map"))).withArgument
            (Outline.binary .add (Outline.referenceExpression "a")
              (Outline.literal "1"))).withArgument
            (((Outline.ofKind .newExpression).named "Buffer").withArgument
              (Outline.referenceExpression "size"))

/-- The text of the creation does not hold that of its argument. -/
theorem creationAsArgument_drops
    : ∃ creation,
        (Tree.ofDocument creationAsArgument).subtree? 10 = some creation
        ∧ creation.kind.isExpression = true
        ∧ creation.text? = none
        ∧ creation.parts.map sourceText = ["size"]
        ∧ creation.sourceText = "new Buffer()"
        ∧ ¬StandIn ["size"] creation.sourceText := by
  refine ⟨_, rfl, rfl, rfl, rfl, rfl, fun standIn => ?_⟩
  exact absurd (standIn.infix_of_mem List.mem_cons_self) (by decide +kernel)

/-- The call is written with its receiver and its arguments, in this order. -/
theorem creationAsArgument_written
    : ∃ call,
        (Tree.ofDocument creationAsArgument).subtree? 5 = some call
        ∧ call.text? = none
        ∧ call.sourceText = "map.put(a + 1, new Buffer())"
        ∧ StandIn ["map", "a + 1", "new Buffer()"] call.sourceText := by
  have present : (Tree.ofDocument creationAsArgument).contains 5 := by decide +kernel
  obtain ⟨call, shown, told, _⟩ := Tree.showsParts_iff (.loaded creationAsArgument) present
  have known
      : ((Tree.ofDocument creationAsArgument).subtree? 5).map (fun call =>
          (call.kind, call.text?, call.parts.map sourceText, call.sourceText))
        = some
            (.methodCall, none, ["map", "a + 1", "new Buffer()"],
              "map.put(a + 1, new Buffer())") := by
    decide +kernel
  rw [shown] at known
  simp only [Option.map_some, Option.some.injEq, Prod.mk.injEq] at known
  obtain ⟨isCall, textless, parts, text⟩ := known
  refine ⟨call, shown, textless, text, ?_⟩
  rw [← parts]
  exact (told textless).1.mpr fun isCreation => absurd (isCall.symm.trans isCreation) (by decide)

end TreeLint
