import TreeLint.Text.Basic
import TreeLint.Text.Case
import TreeLint.Text.Category

/-!
Sets of characters as patterns describe them.
-/

namespace TreeLint

inductive CharSet where
  | nothing
  | range (first last : Char)
  | inCategory (wanted : Text.Category)
  | decimal
  | blank
  | word
  | complement (set : CharSet)
  | union (left right : CharSet)
  | intersection (left right : CharSet)
  /-- Holds every character that differs from one of the set by case at most. -/
  | anyCase (set : CharSet)
  deriving Repr, Inhabited

namespace CharSet

def contains : CharSet → Char → Bool
  | .nothing, _ => false
  | .range first last, c => first ≤ c && c ≤ last
  | .inCategory wanted, c => Text.category c == wanted
  | .decimal, c => Text.isDecimal c
  | .blank, c => Text.isBlank c
  | .word, c => Text.isWordChar c
  | .complement set, c => !set.contains c
  | .union left right, c => left.contains c || right.contains c
  | .intersection left right, c => left.contains c && right.contains c
  | .anyCase set, c => set.contains c || (Text.caseVariants c).any set.contains

def single (c : Char) : CharSet :=
  .range c c

def ofRanges (ranges : List (Char × Char)) : CharSet :=
  ranges.foldr (fun (first, last) set => .union (.range first last) set) .nothing

def ofCategories (categories : List Text.Category) : CharSet :=
  categories.foldr (fun category set => .union (.inCategory category) set) .nothing

/-- The characters of the first set that the second lacks. -/
def difference (left right : CharSet) : CharSet :=
  .intersection left (.complement right)

/-- The characters that are in exactly one of two sets. -/
def symmetricDifference (left right : CharSet) : CharSet :=
  .union (left.difference right) (right.difference left)

def all : CharSet :=
  .complement .nothing

/-- The plain characters, with code points below 128. -/
def ascii : CharSet :=
  .range '\x00' '\x7f'

end CharSet

end TreeLint
