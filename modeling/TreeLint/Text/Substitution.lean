import TreeLint.Text.Basic

/-!
Replacing every occurrence of a pattern in a text, left to right and without overlap, and the
message templates that are filled in this way. In a template `#ref` stands for the text of the node
that the message is about, and `#loc` for nothing, since the location is told beside the message.
-/

namespace TreeLint.Text

/-- Copies a text, replacing `pattern`; the first `skip` characters belong to the occurrence
replaced last and are passed over.
-/
def replaceFrom (pattern replacement : List Char) : Nat → List Char → List Char
  | _, [] => []
  | skip + 1, _ :: rest => replaceFrom pattern replacement skip rest
  | 0, c :: rest =>
      if pattern.isPrefixOf (c :: rest) then
        replacement ++ replaceFrom pattern replacement (pattern.length - 1) rest
      else
        c :: replaceFrom pattern replacement 0 rest

/-- Every occurrence of the pattern, which must not be empty, gives way to the replacement. The
replacement itself is not searched.
-/
def replaceAll (pattern replacement text : List Char) : List Char :=
  replaceFrom pattern replacement 0 text

theorem replaceFrom_skip (pattern replacement : List Char) (skipped rest : List Char)
    : replaceFrom pattern replacement skipped.length (skipped ++ rest)
      = replaceFrom pattern replacement 0 rest := by
  induction skipped with
  | nil => rfl
  | cons _ _ ih => simpa [replaceFrom] using ih

/-- At an occurrence the replacement is written and the search goes on behind it. -/
theorem replaceAll_append (first : Char) (others replacement rest : List Char)
    : replaceAll (first :: others) replacement (first :: others ++ rest)
      = replacement ++ replaceAll (first :: others) replacement rest := by
  have h : (first :: others).isPrefixOf (first :: (others ++ rest)) = true := by
    rw [← List.cons_append]
    exact List.isPrefixOf_iff_prefix.mpr (List.prefix_append _ _)
  simp only [replaceAll, List.cons_append, replaceFrom, h, if_true, List.length_cons,
    Nat.add_sub_cancel]
  rw [replaceFrom_skip]

end TreeLint.Text

namespace TreeLint.Template

def reference : List Char :=
  ['#', 'r', 'e', 'f']

def location : List Char :=
  ['#', 'l', 'o', 'c']

/-- The message that a template gives for a node shown as the given text: placeholders for the
text are filled in first, then those for the location are dropped, and blanks at the end are cut.
-/
def render (template shown : String) : String :=
  let filled := Text.replaceAll reference shown.toList template.toList
  String.ofList (Text.dropBlanksRight (Text.replaceAll location [] filled))

end TreeLint.Template
