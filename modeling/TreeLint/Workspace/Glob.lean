/-!
Globs: patterns of whole paths.
-/

namespace TreeLint

inductive GlobItem where
  | char (c : Char)
  /-- One character, a slash only where slashes are crossed. -/
  | any (crosses : Bool)
  /-- One character in some range, or in none. -/
  | oneOf (negated : Bool) (ranges : List (Char × Char))
  /-- Any characters, slashes only where they are crossed. -/
  | run (crosses : Bool)
  /-- Any number of whole directories, each with its slash. -/
  | directories
  deriving DecidableEq, Repr, Inhabited

abbrev Glob : Type := List GlobItem

namespace Glob

/-! ## Matching -/

/-- What may be left of a text after a run of characters. -/
def afterRun (crosses : Bool) : List Char → List (List Char)
  | [] => [[]]
  | c :: rest => (c :: rest) :: if crosses || c != '/' then afterRun crosses rest else []

/-- What may be left of a text after whole directories, at least one. -/
def afterSlashes : List Char → List (List Char)
  | [] => []
  | c :: rest => if c = '/' then rest :: afterSlashes rest else afterSlashes rest

def after : GlobItem → List Char → List (List Char)
  | .run crosses, text => afterRun crosses text
  | .directories, text => text :: afterSlashes text
  | _, [] => []
  | .char expected, c :: rest => if c = expected then [rest] else []
  | .any crosses, c :: rest => if crosses || c != '/' then [rest] else []
  | .oneOf negated ranges, c :: rest =>
      if (ranges.any fun (low, high) => low ≤ c && c ≤ high) != negated then [rest] else []

def accepts : Glob → List Char → Bool
  | [], text => text.isEmpty
  | item :: rest, text => (after item text).any (accepts rest)

/-! ## Reading -/

/-- The ranges written in a class. A hyphen between two characters makes a range. -/
def classRanges : List Char → List (Char × Char)
  | low :: '-' :: high :: rest => (low, high) :: classRanges rest
  | c :: rest => (c, c) :: classRanges rest
  | [] => []

/-- The class that starts with a character, and the text behind its bracket. A bracket that comes
first is part of the class.
-/
def closeClass? (negated : Bool) (first : Char) (text : List Char)
    : Option (GlobItem × List Char) :=
  match text.dropWhile (· != ']') with
  | [] => none
  | _ :: rest => some (.oneOf negated (classRanges (first :: text.takeWhile (· != ']'))), rest)

def readClass? : List Char → Option (GlobItem × List Char)
  | '!' :: first :: text => closeClass? true first text
  | '!' :: [] => none
  | first :: text => closeClass? false first text
  | [] => none

theorem closeClass?_shorter {negated : Bool} {first : Char} {text rest : List Char}
    {item : GlobItem} (h : closeClass? negated first text = some (item, rest))
    : rest.length < text.length := by
  have hle := (List.dropWhile_suffix (fun c => c != ']') (l := text)).length_le
  unfold closeClass? at h
  split at h
  · cases h
  next c tail heq =>
    rw [heq] at hle
    obtain ⟨-, rfl⟩ := Prod.mk.inj (Option.some.inj h)
    exact Nat.lt_of_succ_le hle

theorem readClass?_shorter {text rest : List Char} {item : GlobItem}
    (h : readClass? text = some (item, rest))
    : rest.length < text.length := by
  unfold readClass? at h
  split at h
  · have := closeClass?_shorter h
    simp only [List.length_cons]
    omega
  · cases h
  · have := closeClass?_shorter h
    simp only [List.length_cons]
    omega
  · cases h

/-- Reads the rest of a glob. Two stars stand for directories, and only as a whole name of the
path; more stars stand for nothing.
-/
def readItems? (afterSlash : Bool) (text : List Char) : Option Glob :=
  match text with
  | [] => some []
  | '*' :: '*' :: '*' :: _ => none
  | '*' :: '*' :: rest =>
      if afterSlash then
        match rest with
        | [] | ['/'] => some [.run true]
        | '/' :: rest => (.directories :: ·) <$> readItems? true rest
        | _ => none
      else
        none
  | '*' :: rest => (.run true :: ·) <$> readItems? false rest
  | '?' :: rest => (.any true :: ·) <$> readItems? false rest
  | '[' :: rest =>
      match h : readClass? rest with
      | none => none
      | some (item, rest') =>
          have := readClass?_shorter h
          (item :: ·) <$> readItems? false rest'
  | c :: rest => (.char c :: ·) <$> readItems? (c == '/') rest
termination_by text.length

/-- Reads a glob. A star and a question mark cross slashes. -/
def read? (text : String) : Option Glob :=
  readItems? true text.toList

end Glob

end TreeLint
