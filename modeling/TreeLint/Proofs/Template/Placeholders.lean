import Mathlib.Algebra.Order.BigOperators.Group.List
import Mathlib.Algebra.Order.Ring.Nat
import TreeLint.Outline.Builder
import TreeLint.Proofs.Text.Substitution
import TreeLint.Subtree.Text
import TreeLint.Text.Substitution
import TreeLint.Tree.Loading

/-! What becomes of the text that is filled into a template. A template is a row of pieces, with
stretches of it between the placeholders for the location. Main result: each stretch is filled in and
then loses every `#loc` that it has by then, so the text stands in the message as it is exactly if no
stretch has got a `#loc` by being filled in.
-/

namespace TreeLint.Template

-----------------------------------------------------------------------------------------
-- Both placeholders at once
-----------------------------------------------------------------------------------------

inductive Piece where
  | plain (c : Char)
  | reference
  | location
  deriving DecidableEq, Repr

/-- The pieces of a template from left to right. -/
def pieces : List Char → List Piece
  | '#' :: 'r' :: 'e' :: 'f' :: rest => .reference :: pieces rest
  | '#' :: 'l' :: 'o' :: 'c' :: rest => .location :: pieces rest
  | c :: rest => .plain c :: pieces rest
  | [] => []

/-- What a piece stands for in a message about a node with the given text. -/
def Piece.fill (shown : List Char) : Piece → List Char
  | .plain c => [c]
  | .reference => shown
  | .location => []

def fill (shown : String) (row : List Piece) : List Char :=
  row.flatMap (Piece.fill shown.toList)

/-- The message with every placeholder of the template replaced at once. What is filled in is not
searched for placeholders.
-/
def expand (template shown : String) : String :=
  String.ofList (Text.dropBlanksRight (fill shown (pieces template.toList)))

/-- The stretches of a template between its placeholders for the location. -/
def stretches (template : String) : List (List Piece) :=
  (pieces template.toList).splitOn .location

/-- A row is filled in stretch by stretch. -/
theorem fill_splitOn (shown : String) (row : List Piece)
    : fill shown row = (row.splitOn .location).flatMap (fill shown) := by
  induction row using Text.separated_induction Piece.location with
  | last stretch absent => rw [List.splitOn_eq_singleton absent, List.flatMap_singleton]
  | more stretch rest absent ih =>
      rw [List.splitOn_append_cons_self_of_not_mem absent, List.flatMap_cons, ← ih, fill,
        List.flatMap_append, List.flatMap_cons]
      rfl

-----------------------------------------------------------------------------------------
-- One placeholder after the other
-----------------------------------------------------------------------------------------

/-- What a piece stands for while only the text is filled in. -/
def Piece.fillReference (shown : List Char) : Piece → List Char
  | .location => Template.location
  | piece => piece.fill shown

/-- The first pass fills in the text and leaves the placeholders for the location. -/
theorem replaceAll_reference (shown template : List Char)
    : Text.replaceAll reference shown template
      = (pieces template).flatMap (Piece.fillReference shown) := by
  fun_induction pieces template with
  | case1 rest ih =>
      rw [List.flatMap_cons, ← ih]
      exact Text.replaceAll_append '#' ['r', 'e', 'f'] shown rest
  | case2 rest ih =>
      have absent {c : Char} {rest : List Char} (other : c ≠ '#') : ¬reference <+: c :: rest :=
        fun found => other (List.cons_prefix_cons.mp found).1.symm
      have noReference : ¬reference <+: '#' :: 'l' :: 'o' :: 'c' :: rest := by
        simp [reference, List.cons_prefix_cons]
      rw [Text.replaceAll_cons noReference, Text.replaceAll_cons (absent (by decide)),
        Text.replaceAll_cons (absent (by decide)), Text.replaceAll_cons (absent (by decide)), ih]
      rfl
  | case3 c rest noReference _ ih =>
      have absent : ¬reference <+: c :: rest := by
        rintro ⟨behind, same⟩
        obtain ⟨rfl, rfl⟩ := List.cons.inj same
        exact noReference behind rfl rfl
      rw [Text.replaceAll_cons absent, ih]
      rfl
  | case4 => rfl

/-- In a stretch without a placeholder for the location, the first pass fills in everything. -/
theorem flatMap_fillReference {shown : String} {stretch : List Piece}
    (absent : .location ∉ stretch)
    : stretch.flatMap (Piece.fillReference shown.toList) = fill shown stretch := by
  refine List.flatMap_congr fun piece member => ?_
  cases piece with
  | location => exact absurd member absent
  | plain c => rfl
  | reference => rfl

/-- The second pass goes over each stretch apart. -/
theorem replaceAll_location (shown : String) (row : List Piece)
    : Text.replaceAll location [] (row.flatMap (Piece.fillReference shown.toList))
      = (row.splitOn .location).flatMap
          fun stretch => Text.replaceAll location [] (fill shown stretch) := by
  induction row using Text.separated_induction Piece.location with
  | last stretch absent =>
      rw [List.splitOn_eq_singleton absent, List.flatMap_singleton, flatMap_fillReference absent]
  | more stretch rest absent ih =>
      rw [List.splitOn_append_cons_self_of_not_mem absent, List.flatMap_cons, ← ih,
        List.flatMap_append, List.flatMap_cons, flatMap_fillReference absent]
      have fresh : '#' ∉ ['l', 'o', 'c'] := by decide
      exact Text.replaceAll_pattern fresh _ _

/-- A message is made of the stretches of the template, each filled in and rid of every `#loc` that
it has then.
-/
theorem render_eq (template shown : String)
    : render template shown
      = String.ofList (Text.dropBlanksRight ((stretches template).flatMap
          fun stretch => Text.replaceAll location [] (fill shown stretch))) := by
  rw [render, replaceAll_reference, replaceAll_location, stretches]

-----------------------------------------------------------------------------------------
-- Where the two agree
-----------------------------------------------------------------------------------------

/-- The blanks that are cut off a message hold no other character. -/
theorem count_dropBlanksRight {c : Char} (noBlank : Text.isBlank c = false) (text : List Char)
    : (Text.dropBlanksRight text).count c = text.count c := by
  obtain ⟨blanks, split, allBlank⟩ := Text.dropBlanksRight_append text
  have none : blanks.count c = 0 :=
    List.count_eq_zero.mpr fun member => by simp [allBlank c member] at noBlank
  conv_rhs => rw [split, List.count_append, none, Nat.add_zero]

/-- The text of a node is filled into a template as it is exactly if that gives no stretch of the
template a `#loc`. Otherwise each `#loc` of such a stretch is missing from the message.
-/
theorem render_eq_expand_iff (template : String) (anchor : Subtree)
    : render template anchor.shownText
        = String.ofList (Text.dropBlanksRight ((stretches template).flatMap
            fun stretch => Text.replaceAll location [] (fill anchor.shownText stretch)))
      ∧ (render template anchor.shownText = expand template anchor.shownText
        ↔ ∀ stretch ∈ stretches template, ¬location <:+: fill anchor.shownText stretch) := by
  have rendered := render_eq template anchor.shownText
  refine ⟨rendered, ?_⟩
  rw [rendered, expand, fill_splitOn]
  constructor
  · -- The two have as many `#`, and every `#loc` that is lost would cost one.
    intro same stretch member occurs
    have counts := congrArg (List.count '#') (String.ofList_injective same)
    rw [count_dropBlanksRight (by decide), count_dropBlanksRight (by decide), List.count_flatMap,
      List.count_flatMap] at counts
    refine absurd counts (Nat.ne_of_lt (List.sum_lt_sum _ _ (fun other _ => ?_) ?_))
    · exact (Text.replaceFrom_sublist location 0 (fill anchor.shownText other)).count_le '#'
    · exact ⟨stretch, member, Text.count_replaceAll_lt occurs⟩
  · intro absent
    have kept (stretch : List Piece) (member : stretch ∈ stretches template)
        : Text.replaceAll location [] (fill anchor.shownText stretch)
          = fill anchor.shownText stretch :=
      Text.replaceAll_of_absent (absent stretch member)
    rw [List.flatMap_congr kept, stretches]

/-- A file with a comment that speaks of the placeholder. -/
def placeholderComment : Document where
  root :=
    Outline.file.withChild <| (Outline.namedClass "A").withChild <|
      Outline.comment "// TODO write #loc here"

/-- The comment has lost a word in the message about it. -/
theorem placeholderComment_lost
    : ∃ anchor,
        (Tree.ofDocument placeholderComment).subtree? 2 = some anchor
        ∧ anchor.shownText = "// TODO write #loc here"
        ∧ render "TODO comment #ref #loc" anchor.shownText = "TODO comment // TODO write  here"
        ∧ expand "TODO comment #ref #loc" anchor.shownText
          = "TODO comment // TODO write #loc here" :=
  ⟨.mk 2 (Outline.comment "// TODO write #loc here").content [], rfl, rfl, rfl, rfl⟩

end TreeLint.Template
