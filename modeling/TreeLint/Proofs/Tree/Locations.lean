import Mathlib.Order.Bounds.Defs
import TreeLint.Outline.Builder
import TreeLint.Proofs.Text.Positions
import TreeLint.Tree.Loading

/-! Where the nodes of a tree are found in the source. Main result: the line and column of a node
lead back to the byte that its span names, or to the last one before that at which a character
starts.
-/

namespace TreeLint

namespace Text

/-- Between the characters of a text, or before or behind all of them. -/
def IsBoundary (source : String) (byte : Nat) : Prop :=
  String.Pos.Raw.IsValid source ⟨byte⟩

/-- The boundaries of a text are the numbers of bytes of what it starts with. -/
theorem isBoundary_iff {source : String} {byte : Nat}
    : IsBoundary source byte
      ↔ ∃ part, part <+: source.toList ∧ String.utf8Len part = byte := by
  rw [IsBoundary, String.Pos.Raw.isValid_iff_exists_append]
  constructor
  · rintro ⟨before, behind, rfl, same⟩
    refine ⟨before.toList, ?_, ?_⟩
    · rw [String.toList_append]
      exact List.prefix_append _ _
    · rw [← String.utf8ByteSize_ofList, String.ofList_toList]
      exact (congrArg String.Pos.Raw.byteIdx same).symm
  · rintro ⟨part, ⟨rest, split⟩, rfl⟩
    refine ⟨String.ofList part, String.ofList rest, ?_, ?_⟩
    · rw [← String.ofList_append, split, String.ofList_toList]
    · rw [← String.utf8ByteSize_ofList]
      rfl

/-- A position is that of the greatest boundary at or before the byte and the end of the text. -/
theorem positionAt_isGreatest (source : String) (offset : Nat)
    : ∃ stop,
        IsGreatest {byte | IsBoundary source byte ∧ byte ≤ min offset source.utf8ByteSize} stop
        ∧ positionAt source offset = positionAt source stop
        ∧ offsetOf? source.toList (positionAt source offset) = some stop := by
  obtain ⟨rest, split⟩ := front_starts offset source.toList
  have size : source.utf8ByteSize = String.utf8Len source.toList := by
    rw [← String.utf8ByteSize_ofList, String.ofList_toList]
  refine ⟨String.utf8Len (front offset source.toList), ⟨⟨?_, ?_⟩, ?_⟩, ?_, ?_⟩
  · exact isBoundary_iff.mpr ⟨_, front_starts offset source.toList, rfl⟩
  · rw [size]
    exact Nat.le_min.mpr
      ⟨utf8Len_front_le _ _, String.utf8Len_le_of_prefix (front_starts offset source.toList)⟩
  · rintro byte ⟨boundary, fits⟩
    obtain ⟨part, starts, rfl⟩ := isBoundary_iff.mp boundary
    exact String.utf8Len_le_of_prefix (prefix_front starts (Nat.le_min.mp fits).1)
  · have same := front_append (front offset source.toList) rest
    rw [split] at same
    rw [positionAt_eq, positionAt_eq, same]
  · have back := offsetOf?_foldl (front offset source.toList) rest
    rwa [split, ← positionAt_eq] at back

/-- A later boundary is at a later place. -/
theorem positionAt_strictMono {source : String} {first second : Nat}
    (boundary : IsBoundary source first) (later : IsBoundary source second) (less : first < second)
    : toLex (positionAt source first) < toLex (positionAt source second) := by
  obtain ⟨before, starts, rfl⟩ := isBoundary_iff.mp boundary
  obtain ⟨more, ⟨rest, split⟩, rfl⟩ := isBoundary_iff.mp later
  have longer : before <+: more := by
    have fits := prefix_front starts (Nat.le_of_lt less)
    rwa [← split, front_append] at fits
  obtain ⟨between, rfl⟩ := longer
  have some : between ≠ [] := by
    rintro rfl
    rw [List.append_nil] at less
    exact Nat.lt_irrefl _ less
  rw [positionAt_eq, positionAt_eq, ← split, front_append, List.append_assoc, front_append,
    List.foldl_append]
  exact foldl_advance_gt some _

end Text

/-- A node with a span has a location if the source is known. Its line and column can be read off the
bytes of the source, and they are those of the greatest boundary at or before the offset of the span
and the end of the source: going to the line and over the characters before the column leads there.
Of two boundaries, the later one is at the later place. Offset and length are those of the span.
-/
theorem Tree.location_inverts {tree : Tree} {source : String} (told : tree.source = some source)
    {id : NodeId} {span : Span} (spanned : (tree.content? id).bind (·.span) = some span)
    : ∃ location stop,
        tree.location? id = some location
        ∧ Text.readPosition? source.toList span.offset.toNat
          = some (location.line, location.column)
        ∧ IsGreatest
            {byte |
              Text.IsBoundary source byte
              ∧ byte ≤ min span.offset.toNat source.utf8ByteSize}
            stop
        ∧ (location.line, location.column) = positionAt source stop
        ∧ Text.offsetOf? source.toList (location.line, location.column) = some stop
        ∧ (∀ first second,
            Text.IsBoundary source first
            → Text.IsBoundary source second
            → first < second
            → toLex (positionAt source first) < toLex (positionAt source second))
        ∧ location.offset = span.offset
        ∧ location.length = span.length := by
  obtain ⟨content, known, hasSpan⟩ := Option.bind_eq_some_iff.mp spanned
  obtain ⟨stop, greatest, same, back⟩ := Text.positionAt_isGreatest source span.offset.toNat
  let location : Location :=
    { file := tree.fileName
      line := (positionAt source span.offset.toNat).1
      column := (positionAt source span.offset.toNat).2
      offset := span.offset
      length := span.length }
  have located : tree.location? id = some location := by
    rw [location?, told, known]
    simp only [Option.bind_eq_bind, Option.bind_some, hasSpan]
    rfl
  exact ⟨location, stop, located, Text.readPosition?_eq source span.offset.toNat, greatest, same,
    back, fun _ _ => Text.positionAt_strictMono, rfl, rfl⟩

/-- A source in which the last line has a character of two bytes, with a span that starts at the
second of them and one that starts behind the end.
-/
def accentedSource : Document where
  source := some "ab\ncdéx"
  root :=
    (Outline.file.withChild ((Outline.namedClass "Inside").withSpan 6 1)).withChild
      ((Outline.namedClass "Past").withSpan 100 1)

/-- The first span is found at the start of the character, which the column leads back to. -/
theorem accentedSource_inverts
    : ∃ location,
        (Tree.ofDocument accentedSource).location? 1 = some location
        ∧ (location.line, location.column, location.offset) = (2, 3, 6)
        ∧ Text.offsetOf? "ab\ncdéx".toList (location.line, location.column) = some 5
        ∧ Text.IsBoundary "ab\ncdéx" 5 := by
  have told : (Tree.ofDocument accentedSource).source = some "ab\ncdéx" := rfl
  have spanned
      : ((Tree.ofDocument accentedSource).content? 1).bind (·.span)
        = some (⟨6, 1⟩ : Span) := by
    decide +kernel
  obtain ⟨location, stop, located, _, ⟨⟨boundary, _⟩, _⟩, _, back, _, offset, _⟩ :=
    Tree.location_inverts told spanned
  have place
      : ((Tree.ofDocument accentedSource).location? 1).map (fun l => (l.line, l.column))
        = some (2, 3) := by
    decide +kernel
  rw [located] at place
  obtain ⟨line, column⟩ := Prod.mk.inj (Option.some.inj place)
  have five : stop = 5 := by
    rw [line, column] at back
    exact Option.some.inj (back.symm.trans (by decide +kernel))
  refine ⟨location, located, ?_, five ▸ back, five ▸ boundary⟩
  rw [line, column, offset]

end TreeLint
