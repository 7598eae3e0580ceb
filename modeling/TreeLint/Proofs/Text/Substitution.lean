import TreeLint.Text.Basic
import TreeLint.Text.Substitution

/-! Where replacing a pattern changes a text. The search goes on behind a place that no occurrence
reaches over, such as a character that is not in the pattern, or an occurrence of a pattern whose
first character is nowhere else in it. What is replaced before the place then does not depend on what
comes behind. Characters that are not in the pattern stay, and those of the replacement come to them.
-/

namespace TreeLint.Text

variable {pattern replacement text before behind : List Char} {first c : Char}
  {others rest : List Char}

/-- What holds of lists without a separator, and of such a list in front of a separator whenever it
holds of the rest, holds of all lists.
-/
theorem separated_induction {α : Type} [DecidableEq α] (separator : α) {motive : List α → Prop}
    (last : ∀ part, separator ∉ part → motive part)
    (more : ∀ part rest, separator ∉ part → motive rest → motive (part ++ separator :: rest))
    : ∀ items, motive items := by
  intro items
  induction size : items.length using Nat.strongRecOn generalizing items with
  | ind size ih =>
      by_cases present : separator ∈ items
      · obtain ⟨part, rest, rfl, first⟩ := List.eq_append_cons_of_mem present
        refine more part rest first (ih rest.length ?_ rest rfl)
        rw [← size, List.length_append, List.length_cons]
        omega
      · exact last items present

/-- Where the pattern does not start, a character is copied. -/
theorem replaceAll_cons (absent : ¬pattern <+: c :: rest)
    : replaceAll pattern replacement (c :: rest) = c :: replaceAll pattern replacement rest := by
  rw [replaceAll, replaceFrom, if_neg (mt List.isPrefixOf_iff_prefix.mp absent), replaceAll]

/-- A text without the pattern stays as it is. -/
theorem replaceAll_of_absent (absent : ¬pattern <:+: text)
    : replaceAll pattern replacement text = text := by
  induction text with
  | nil => rfl
  | cons c rest ih =>
      obtain ⟨noStart, noMore⟩ := not_or.mp (mt List.infix_cons_iff.mpr absent)
      rw [replaceAll_cons noStart, ih noMore]

/-- What holds of the empty text, and of a text behind an occurrence of the pattern or behind a
character at which it does not start whenever it holds of the text, holds of all texts.
-/
theorem replacing_induction (first : Char) (others : List Char) {motive : List Char → Prop}
    (nil : motive []) (replaced : ∀ rest, motive rest → motive (first :: others ++ rest))
    (copied : ∀ c rest, ¬first :: others <+: c :: rest → motive rest → motive (c :: rest))
    : ∀ text, motive text := by
  intro text
  induction size : text.length using Nat.strongRecOn generalizing text with
  | ind size ih =>
      cases text with
      | nil => exact nil
      | cons c rest =>
          by_cases found : first :: others <+: c :: rest
          · obtain ⟨behind, split⟩ := found
            rw [← split] at size ⊢
            refine replaced behind (ih behind.length ?_ behind rfl)
            rw [← size, List.length_append, List.length_cons]
            omega
          · exact copied c rest found (ih rest.length (by simp [← size]) rest rfl)

-----------------------------------------------------------------------------------------
-- Places that no occurrence reaches over
-----------------------------------------------------------------------------------------

/-- If no occurrence that starts before a place reaches over it, what is before it and what is behind
it are searched apart.
-/
theorem replaceAll_apart
    (ends : ∀ part, part ≠ [] → first :: others <+: part ++ behind → first :: others <+: part)
    (before : List Char)
    : replaceAll (first :: others) replacement (before ++ behind)
      = replaceAll (first :: others) replacement before
        ++ replaceAll (first :: others) replacement behind := by
  induction before using replacing_induction first others with
  | nil => rfl
  | replaced rest ih =>
      rw [List.append_assoc, replaceAll_append, replaceAll_append, ih, List.append_assoc]
  | copied c rest absent ih =>
      have absentToo := mt (ends (c :: rest) (List.cons_ne_nil c rest)) absent
      rw [List.cons_append] at absentToo ⊢
      rw [replaceAll_cons absent, replaceAll_cons absentToo, ih, List.cons_append]

/-- A character that is not in the pattern divides the text. -/
theorem replaceAll_divided (other : c ∉ first :: others) (before behind : List Char)
    : replaceAll (first :: others) replacement (before ++ c :: behind)
      = replaceAll (first :: others) replacement before
        ++ c :: replaceAll (first :: others) replacement behind := by
  have absent : ¬first :: others <+: c :: behind := fun found =>
    other ((List.cons_prefix_cons.mp found).1 ▸ List.mem_cons_self)
  rw [← replaceAll_cons absent]
  refine replaceAll_apart (fun part _ found => ?_) before
  by_cases fits : (first :: others).length ≤ part.length
  · exact List.prefix_of_prefix_length_le found (List.prefix_append part _) fits
  · have longer : part ++ [c] <+: first :: others := by
      refine List.prefix_of_prefix_length_le ⟨behind, by simp⟩ found ?_
      rw [List.length_append]
      exact Nat.lt_of_not_le fits
    exact absurd (longer.mem (List.mem_append_right part List.mem_cons_self)) other

/-- An occurrence that starts before another one ends before it. -/
theorem prefix_before_pattern (fresh : first ∉ others) (starts : before ≠ [])
    (found : first :: others <+: before ++ (first :: others ++ behind))
    : first :: others <+: before := by
  by_cases fits : (first :: others).length ≤ before.length
  · exact List.prefix_of_prefix_length_le found (List.prefix_append before _) fits
  · -- The pattern would start again inside itself.
    obtain ⟨part, split⟩ : before <+: first :: others :=
      List.prefix_of_prefix_length_le (List.prefix_append before _) found (Nat.le_of_not_le fits)
    have again : part <+: first :: others ++ behind := by
      rwa [← split, List.prefix_append_right_inj, split] at found
    obtain ⟨c, front, rfl⟩ := List.exists_cons_of_ne_nil starts
    have inside : others = front ++ part := (List.cons.inj split).2.symm
    cases part with
    | nil => simp [inside] at fits
    | cons d more =>
        obtain rfl : d = first := (List.cons_prefix_cons.mp again).1
        exact absurd (inside ▸ List.mem_append_right front List.mem_cons_self) fresh

/-- An occurrence divides the text: what is before it and what is behind it are searched apart. -/
theorem replaceAll_pattern (fresh : first ∉ others) (before behind : List Char)
    : replaceAll (first :: others) replacement (before ++ (first :: others ++ behind))
      = replaceAll (first :: others) replacement before
        ++ (replacement ++ replaceAll (first :: others) replacement behind) := by
  rw [← replaceAll_append]
  exact replaceAll_apart (fun _ => prefix_before_pattern fresh) before

/-- Up to the first occurrence a text is copied, and behind it the search goes on. -/
theorem replaceAll_first (occurs : first :: others <:+: text) (replacement : List Char)
    : ∃ before behind,
        text = before ++ (first :: others ++ behind)
        ∧ replaceAll (first :: others) replacement text
          = before ++ (replacement ++ replaceAll (first :: others) replacement behind) := by
  induction text with
  | nil => exact absurd (List.infix_nil.mp occurs) (List.cons_ne_nil first others)
  | cons c rest ih =>
      by_cases starts : first :: others <+: c :: rest
      · obtain ⟨behind, split⟩ := starts
        exact ⟨[], behind, split.symm, by rw [← split, replaceAll_append, List.nil_append]⟩
      · obtain ⟨before, behind, split, replaced⟩ :=
          ih ((List.infix_cons_iff.mp occurs).resolve_left starts)
        refine ⟨c :: before, behind, congrArg (c :: ·) split, ?_⟩
        rw [replaceAll_cons starts, replaced, List.cons_append]

-----------------------------------------------------------------------------------------
-- Counting characters
-----------------------------------------------------------------------------------------

/-- A character that is not in the pattern is not lost. -/
theorem count_le_replaceAll (other : c ∉ first :: others) (replacement text : List Char)
    : text.count c ≤ (replaceAll (first :: others) replacement text).count c := by
  induction text using replacing_induction first others with
  | nil => exact Nat.le_refl _
  | replaced rest ih =>
      rw [replaceAll_append, List.count_append, List.count_append, List.count_eq_zero.mpr other]
      omega
  | copied d rest absent ih =>
      rw [replaceAll_cons absent, List.count_cons, List.count_cons]
      omega

/-- Where a pattern occurs, its replacement brings its characters. -/
theorem count_lt_replaceAll (other : c ∉ first :: others) (brought : c ∈ replacement)
    (occurs : first :: others <:+: text)
    : text.count c < (replaceAll (first :: others) replacement text).count c := by
  obtain ⟨before, behind, split, replaced⟩ := replaceAll_first occurs replacement
  have more := count_le_replaceAll other replacement behind
  have some := List.count_pos_iff.mpr brought
  rw [replaced, split]
  simp only [List.count_append, List.count_eq_zero.mpr other]
  omega

/-- Dropping a pattern adds nothing to a text and changes no order. -/
theorem replaceFrom_sublist (pattern : List Char) (skip : Nat) (text : List Char)
    : (replaceFrom pattern [] skip text).Sublist text := by
  fun_induction replaceFrom pattern [] skip text with
  | case1 => exact .slnil
  | case2 skip c rest ih => exact ih.cons c
  | case3 c rest found ih => exact ih.cons c
  | case4 c rest absent ih => exact ih.cons_cons c

/-- Dropping a pattern leaves the characters that are not in it. -/
theorem count_replaceAll_nil (other : c ∉ first :: others) (text : List Char)
    : (replaceAll (first :: others) [] text).count c = text.count c :=
  Nat.le_antisymm ((replaceFrom_sublist (first :: others) 0 text).count_le c)
    (count_le_replaceAll other [] text)

/-- Dropping a pattern that occurs takes away its first character at least once. -/
theorem count_replaceAll_lt (occurs : first :: others <:+: text)
    : (replaceAll (first :: others) [] text).count first < text.count first := by
  obtain ⟨before, behind, split, dropped⟩ := replaceAll_first occurs []
  have fewer : (replaceAll (first :: others) [] behind).count first ≤ behind.count first :=
    (replaceFrom_sublist (first :: others) 0 behind).count_le first
  rw [dropped, split]
  simp only [List.count_append, List.count_nil, List.count_cons_self]
  omega

-----------------------------------------------------------------------------------------
-- Blanks at the end
-----------------------------------------------------------------------------------------

/-- A character is cut only if it is a blank and everything behind it is cut. -/
theorem dropBlanksRight_cons (c : Char) (text : List Char)
    : dropBlanksRight (c :: text)
      = if dropBlanksRight text = [] ∧ isBlank c then [] else c :: dropBlanksRight text := by
  rw [dropBlanksRight, List.reverse_cons, List.dropWhile_append]
  by_cases cut : text.reverse.dropWhile isBlank = []
  · cases blank : isBlank c <;> simp [dropBlanksRight, cut, blank]
  · simp [dropBlanksRight, cut]

/-- Only blanks behind a character that is none are cut. -/
theorem dropBlanksRight_append_cons (noBlank : isBlank c = false) (before behind : List Char)
    : dropBlanksRight (before ++ c :: behind) = before ++ c :: dropBlanksRight behind := by
  induction before with
  | nil => rw [List.nil_append, dropBlanksRight_cons, if_neg (by simp [noBlank]), List.nil_append]
  | cons d before ih =>
      rw [List.cons_append, dropBlanksRight_cons, ih, if_neg (by simp), List.cons_append]

/-- Texts that differ in no more than blanks at the end still do so behind a character. -/
theorem dropBlanksRight_cons_inj {other : List Char}
    : dropBlanksRight (c :: text) = dropBlanksRight (c :: other)
      ↔ dropBlanksRight text = dropBlanksRight other := by
  rw [dropBlanksRight_cons, dropBlanksRight_cons]
  constructor
  · intro same
    split at same <;> split at same
    · next cut cutToo => rw [cut.1, cutToo.1]
    · cases same
    · cases same
    · exact (List.cons.inj same).2
  · intro same
    rw [same]

end TreeLint.Text
