import Mathlib.Data.Prod.Lex
import Mathlib.Data.String.Basic
import TreeLint.Proofs.Text.Substitution
import TreeLint.Tree.Location

/-! Places in a text, by bytes and by lines. The bytes before a place and the line and column of it
say the same: either is found from the other, and what comes later in bytes comes later by lines.
The position that is found over the characters is also found by cutting the text at bytes, and each
of the cuts is between two characters.
-/

namespace TreeLint.Text

open String (utf8Len)

variable {text part rest line : List Char} {bytes : Nat} {place : Nat × Nat}

-----------------------------------------------------------------------------------------
-- Characters that end within so many bytes
-----------------------------------------------------------------------------------------

/-- The characters of a text that end within so many bytes. -/
def front : Nat → List Char → List Char
  | _, [] => []
  | bytes, c :: rest =>
      if c.utf8Size ≤ bytes then c :: front (bytes - c.utf8Size) rest else []

theorem front_starts (bytes : Nat) (text : List Char) : front bytes text <+: text := by
  fun_induction front bytes text with
  | case1 => exact List.prefix_refl []
  | case2 bytes c rest fits ih => exact List.cons_prefix_cons.mpr ⟨rfl, ih⟩
  | case3 => exact List.nil_prefix

theorem utf8Len_front_le (bytes : Nat) (text : List Char)
    : utf8Len (front bytes text) ≤ bytes := by
  fun_induction front bytes text with
  | case1 => exact Nat.zero_le _
  | case2 bytes c rest fits ih =>
      rw [String.utf8Len_cons]
      omega
  | case3 => exact Nat.zero_le _

/-- What starts a text and has no more bytes than that ends within them. -/
theorem prefix_front (starts : part <+: text) (fits : utf8Len part ≤ bytes)
    : part <+: front bytes text := by
  fun_induction front bytes text generalizing part with
  | case1 => exact starts
  | case2 bytes c rest inside ih =>
      cases part with
      | nil => exact List.nil_prefix
      | cons d part =>
          obtain ⟨rfl, others⟩ := List.cons_prefix_cons.mp starts
          rw [String.utf8Len_cons] at fits
          exact List.cons_prefix_cons.mpr ⟨rfl, ih others (by omega)⟩
  | case3 bytes c rest outside =>
      cases part with
      | nil => exact List.nil_prefix
      | cons d part =>
          obtain ⟨rfl, _⟩ := List.cons_prefix_cons.mp starts
          rw [String.utf8Len_cons] at fits
          omega

/-- Only a text without characters has no bytes more than what starts it. -/
theorem eq_of_prefix_of_le (starts : part <+: text) (few : utf8Len text ≤ utf8Len part)
    : part = text := by
  obtain ⟨rest, rfl⟩ := starts
  rw [String.utf8Len_append] at few
  rw [String.utf8Len_eq_zero.mp (show utf8Len rest = 0 by omega), List.append_nil]

/-- The characters before a boundary are those that end there. -/
theorem front_append (part rest : List Char) : front (utf8Len part) (part ++ rest) = part :=
  (eq_of_prefix_of_le (prefix_front (List.prefix_append part rest) (Nat.le_refl _))
    (utf8Len_front_le _ _)).symm

-----------------------------------------------------------------------------------------
-- Lines and columns
-----------------------------------------------------------------------------------------

/-- The place behind a character: a new line behind the end of one, else the next column. -/
def advance (place : Nat × Nat) (c : Char) : Nat × Nat :=
  if c = '\n' then (place.1 + 1, 1) else (place.1, place.2 + 1)

/-- A position is reached by going over the characters that end within the bytes. -/
theorem positionFrom_eq (line column bytes : Nat) (text : List Char)
    : positionFrom line column bytes text = (front bytes text).foldl advance (line, column) := by
  fun_induction positionFrom line column bytes text with
  | case1 => rfl
  | case2 line column bytes rest fits ih => rw [ih, front, if_pos fits]; rfl
  | case3 line column bytes c rest fits other ih =>
      rw [ih, front, if_pos fits, List.foldl_cons, advance, if_neg other]
  | case4 line column bytes c rest outside => rw [front, if_neg outside]; rfl

theorem positionAt_eq (source : String) (offset : Nat)
    : positionAt source offset = (front offset source.toList).foldl advance (1, 1) :=
  positionFrom_eq 1 1 offset source.toList

/-- In a line only the column grows. -/
theorem foldl_advance_line (single : '\n' ∉ line) (place : Nat × Nat)
    : line.foldl advance place = (place.1, place.2 + line.length) := by
  induction line generalizing place with
  | nil => rfl
  | cons c rest ih =>
      obtain ⟨first, others⟩ := not_or.mp (mt List.mem_cons.mpr single)
      rw [List.foldl_cons, ih others, advance, if_neg (Ne.symm first), List.length_cons]
      exact Prod.ext rfl (by omega)

/-- The end of a line leads to the start of the next one. -/
theorem foldl_advance_newline (before rest : List Char) (place : Nat × Nat)
    : (before ++ '\n' :: rest).foldl advance place
      = rest.foldl advance ((before.foldl advance place).1 + 1, 1) := by
  rw [List.foldl_append, List.foldl_cons]
  rfl

/-- The lines that are passed are the ends of lines that are passed. -/
theorem foldl_advance_fst (text : List Char) (place : Nat × Nat)
    : (text.foldl advance place).1 = place.1 + text.count '\n' := by
  induction text generalizing place with
  | nil => rfl
  | cons c rest ih =>
      rw [List.foldl_cons, ih, advance, List.count_cons]
      by_cases newline : c = '\n'
      · rw [if_pos newline, if_pos (beq_iff_eq.mpr newline)]
        dsimp only
        omega
      · rw [if_neg newline, if_neg (by simpa using newline)]
        rfl

/-- From a later line on, the same columns of later lines are reached. -/
theorem foldl_advance_shift (text : List Char) (place : Nat × Nat) (lines : Nat)
    : text.foldl advance (place.1 + lines, place.2)
      = ((text.foldl advance place).1 + lines, (text.foldl advance place).2) := by
  induction text generalizing place with
  | nil => rfl
  | cons c rest ih =>
      have same : advance (place.1 + lines, place.2) c
          = ((advance place c).1 + lines, (advance place c).2) := by
        rw [advance, advance]
        split
        · exact Prod.ext (Nat.add_right_comm _ _ _) rfl
        · rfl
      rw [List.foldl_cons, List.foldl_cons, same, ih]

/-- Each character leads to a later place. -/
theorem advance_gt (place : Nat × Nat) (c : Char) : toLex place < toLex (advance place c) := by
  rw [Prod.Lex.toLex_lt_toLex, advance]
  split
  · exact .inl (Nat.lt_succ_self _)
  · exact .inr ⟨rfl, Nat.lt_succ_self _⟩

/-- Characters lead to a later place, by induction on them. -/
theorem foldl_advance_gt (some : text ≠ []) (place : Nat × Nat)
    : toLex place < toLex (text.foldl advance place) := by
  induction text generalizing place with
  | nil => exact absurd rfl some
  | cons c rest ih =>
      cases rest with
      | nil => exact advance_gt place c
      | cons d rest => exact (advance_gt place c).trans (ih (List.cons_ne_nil d rest) _)

-----------------------------------------------------------------------------------------
-- Going to a line and a column
-----------------------------------------------------------------------------------------

/-- The bytes before a place that is reached by going to a line of the text split at newlines and
then over the characters before the column. Lines and columns count from one, and a line that is too
short or missing has no such place.
-/
def offsetOf? (text : List Char) : Nat × Nat → Option Nat
  | (line + 1, column + 1) => do
      let lines := text.splitOn '\n'
      let chosen ← lines[line]?
      if column ≤ chosen.length then
        return utf8Len ((lines.take line).flatMap (· ++ ['\n']) ++ chosen.take column)
      else
        none
  | _ => none

/-- Behind the first line of a text are the places of the rest. -/
theorem offsetOf?_newline (single : '\n' ∉ line) (rest : List Char) (place : Nat × Nat)
    (first : 0 < place.1)
    : offsetOf? (line ++ '\n' :: rest) (place.1 + 1, place.2)
      = (offsetOf? rest place).map (utf8Len (line ++ ['\n']) + ·) := by
  obtain ⟨number, column⟩ := place
  obtain ⟨number, rfl⟩ := Nat.exists_eq_add_one.mpr first
  cases column with
  | zero => rfl
  | succ column =>
      simp only [offsetOf?, List.splitOn_append_cons_self_of_not_mem single,
        List.getElem?_cons_succ, List.take_succ_cons, List.flatMap_cons]
      cases (rest.splitOn '\n')[number]? with
      | none => rfl
      | some chosen =>
          simp only [Option.bind_eq_bind, Option.bind_some]
          split
          · rw [List.append_assoc, String.utf8Len_append]
            rfl
          · rfl

/-- In the first line of a text are the places in front of its end. -/
theorem offsetOf?_line (single : '\n' ∉ line) (rest : List Char)
    : offsetOf? (line ++ rest) (1, line.length + 1) = some (utf8Len line) := by
  have starts : ∃ more lines, (line ++ rest).splitOn '\n' = (line ++ more) :: lines := by
    by_cases last : '\n' ∈ rest
    · obtain ⟨more, behind, rfl, plain⟩ := List.eq_append_cons_of_mem last
      refine ⟨more, behind.splitOn '\n', ?_⟩
      rw [← List.append_assoc, List.splitOn_append_cons_self_of_not_mem]
      exact fun member => (List.mem_append.mp member).elim single plain
    · refine ⟨rest, [], List.splitOn_eq_singleton fun member => ?_⟩
      exact (List.mem_append.mp member).elim single last
  obtain ⟨more, lines, split⟩ := starts
  simp [offsetOf?, split]

/-- The place behind some characters of a text leads back to their bytes, by induction on the lines
that are passed.
-/
theorem offsetOf?_foldl (part rest : List Char)
    : offsetOf? (part ++ rest) (part.foldl advance (1, 1)) = some (utf8Len part) := by
  induction part using separated_induction '\n' with
  | last line single =>
      rw [foldl_advance_line single, Nat.add_comm 1]
      exact offsetOf?_line single rest
  | more line part single ih =>
      have first : 0 < (part.foldl advance (1, 1)).1 := by
        rw [foldl_advance_fst]
        omega
      rw [foldl_advance_newline, foldl_advance_line single, foldl_advance_shift part (1, 1) 1,
        List.append_assoc, List.cons_append, offsetOf?_newline single _ _ first, ih,
        Option.map_some, ← String.utf8Len_append, List.append_assoc]
      rfl

-----------------------------------------------------------------------------------------
-- Cutting at bytes
-----------------------------------------------------------------------------------------

/-- A text cut in two at a byte. There is no cut inside a character or outside of the text. -/
def cutAt? (text : List Char) (bytes : Nat) : Option (List Char × List Char) :=
  let before := front bytes text
  if utf8Len before = bytes then some (before, text.drop before.length) else none

/-- The last byte at or before the given one that a text can be cut at, looked for byte by byte. -/
def snapBack? (text : List Char) : Nat → Option Nat
  | 0 => (cutAt? text 0).map fun _ => 0
  | bytes + 1 =>
      if (cutAt? text (bytes + 1)).isSome then some (bytes + 1) else snapBack? text bytes

/-- The byte at which the last newline of a text starts. -/
def lastNewline? : List Char → Option Nat
  | [] => none
  | c :: rest =>
      match lastNewline? rest with
      | some bytes => some (c.utf8Size + bytes)
      | none => if c = '\n' then some 0 else none

/-- The place behind a text: the newlines in it are counted, and then the characters that are left if
it is cut behind the last one.
-/
def placeBehind? (text : List Char) : Option (Nat × Nat) :=
  match lastNewline? text with
  | none => some (text.count '\n' + 1, text.length + 1)
  | some newline => do
      let (_, line) ← cutAt? text (newline + 1)
      return (text.count '\n' + 1, line.length + 1)

/-- The position of a byte, read off the text in front of it. A byte behind the end of the text stands
for the end, and one inside a character for the start of the character.
-/
def readPosition? (text : List Char) (offset : Nat) : Option (Nat × Nat) := do
  let stop ← snapBack? text (min offset (utf8Len text))
  let (before, _) ← cutAt? text stop
  placeBehind? before

theorem cutAt?_append (part rest : List Char)
    : cutAt? (part ++ rest) (utf8Len part) = some (part, rest) := by
  rw [cutAt?, front_append, if_pos rfl, List.drop_left]

/-- A text is cut in front of the characters that end within the bytes. -/
theorem snapBack?_eq (text : List Char) (bytes : Nat)
    : snapBack? text bytes = some (utf8Len (front bytes text)) := by
  induction bytes with
  | zero =>
      have none := Nat.le_zero.mp (utf8Len_front_le 0 text)
      rw [snapBack?, cutAt?, if_pos none, none]
      rfl
  | succ bytes ih =>
      have least := utf8Len_front_le (bytes + 1) text
      rw [snapBack?, cutAt?]
      split
      · next found => rw [if_pos (by rfl), found]
      · next inside =>
          -- What ends within the bytes ends before the last of them.
          have same : front (bytes + 1) text = front bytes text := by
            refine eq_of_prefix_of_le
              (prefix_front (front_starts _ _) (by omega)) ?_
            have starts := (prefix_front (front_starts bytes text)
              (Nat.le_succ_of_le (utf8Len_front_le bytes text))).sublist
            exact String.utf8Len_le_of_sublist starts
          rw [if_neg (by simp), ih, same]

theorem lastNewline?_line (single : '\n' ∉ line) : lastNewline? line = none := by
  induction line with
  | nil => rfl
  | cons c rest ih =>
      obtain ⟨first, others⟩ := not_or.mp (mt List.mem_cons.mpr single)
      rw [lastNewline?, ih others]
      exact if_neg (Ne.symm first)

/-- The last newline is the one in front of the last line. -/
theorem lastNewline?_append (single : '\n' ∉ line) (before : List Char)
    : lastNewline? (before ++ '\n' :: line) = some (utf8Len before) := by
  induction before with
  | nil =>
      rw [List.nil_append, lastNewline?, lastNewline?_line single]
      rfl
  | cons c rest ih =>
      rw [List.cons_append, lastNewline?, ih, String.utf8Len_cons, Nat.add_comm]

/-- A text is within a line, or has a last line behind a newline. -/
theorem lastLine_cases (text : List Char)
    : '\n' ∉ text ∨ ∃ before line, text = before ++ '\n' :: line ∧ '\n' ∉ line := by
  induction text using separated_induction '\n' with
  | last line single => exact .inl single
  | more line rest _ ih =>
      refine .inr ?_
      rcases ih with single | ⟨before, last, rfl, single⟩
      · exact ⟨line, rest, rfl, single⟩
      · exact ⟨line ++ '\n' :: before, last, by simp, single⟩

/-- Bytes behind the end of a text add nothing to it. -/
theorem front_min (bytes : Nat) (text : List Char)
    : front (min bytes (utf8Len text)) text = front bytes text := by
  have fits := Nat.le_min.mpr
    ⟨utf8Len_front_le bytes text, String.utf8Len_le_of_prefix (front_starts bytes text)⟩
  have more := prefix_front (front_starts bytes text) fits
  refine (eq_of_prefix_of_le more ?_).symm
  refine String.utf8Len_le_of_prefix (prefix_front (front_starts _ _) ?_)
  exact (utf8Len_front_le _ _).trans (Nat.min_le_left _ _)

/-- The place behind a text can always be read off, and is the one that its characters lead to. -/
theorem placeBehind?_eq (text : List Char)
    : placeBehind? text = some (text.foldl advance (1, 1)) := by
  have newlines := foldl_advance_fst text (1, 1)
  rw [placeBehind?]
  rcases lastLine_cases text with single | ⟨before, line, rfl, single⟩
  · rw [foldl_advance_line single] at newlines ⊢
    rw [lastNewline?_line single, newlines, Nat.add_comm 1, Nat.add_comm 1]
  · have cut := cutAt?_append (before ++ ['\n']) line
    rw [List.append_assoc, String.utf8Len_append] at cut
    rw [foldl_advance_newline, foldl_advance_line single] at newlines ⊢
    rw [lastNewline?_append single, newlines, Nat.add_comm 1, Nat.add_comm 1]
    exact Option.bind_eq_some_iff.mpr ⟨_, cut, rfl⟩

/-- The position of a byte can always be read off, and is the one that is reached over the characters.
-/
theorem readPosition?_eq (source : String) (offset : Nat)
    : readPosition? source.toList offset = some (positionAt source offset) := by
  obtain ⟨rest, split⟩ := front_starts offset source.toList
  have cut := cutAt?_append (front offset source.toList) rest
  rw [split] at cut
  rw [readPosition?, snapBack?_eq, front_min, positionAt_eq, ← placeBehind?_eq]
  simp only [Option.bind_eq_bind, Option.bind_some, cut]

end TreeLint.Text
