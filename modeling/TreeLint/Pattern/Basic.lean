import TreeLint.Pattern.CharSet

/-!
Patterns and the texts that they are found in. A set of places of a text, the place before the
first character and the place behind each, is a list of truth values; a pattern takes the places
where a match may start to those where it may end.
-/

namespace TreeLint

inductive Assertion where
  | textStart
  | textEnd
  | lineStart
  | lineEnd
  /-- Holds at line starts where a carriage return ends a line, too. -/
  | lineStartAfterReturn
  /-- Holds at line ends where a carriage return ends a line, too. -/
  | lineEndBeforeReturn
  | wordBoundary
  | noWordBoundary
  | wordStart
  | wordEnd
  | wordStartHalf
  /-- No word goes on behind the place. -/
  | wordEndHalf
  deriving DecidableEq, Repr, Inhabited

inductive Pattern where
  | empty
  | char (set : CharSet)
  | place (words : CharSet) (condition : Assertion)
  | sequence (first second : Pattern)
  | either (first second : Pattern)
  /-- Matches the pattern in a row, at least `least` times and at most `most` times. -/
  | repeated (pattern : Pattern) (least : Nat) (most : Option Nat)
  deriving Repr, Inhabited

structure Gap where
  before : Option Char
  after : Option Char
  deriving DecidableEq, Repr, Inhabited

/-- The places of a text behind a first one. -/
def gapsFrom (before : Option Char) : List Char → List Gap
  | [] => [{ before, after := none }]
  | c :: rest => { before, after := some c } :: gapsFrom (some c) rest

def gaps (text : List Char) : List Gap :=
  gapsFrom none text

namespace Assertion

/-- The condition holds at a place, where words are made of the given characters. -/
def holds (words : CharSet) (assertion : Assertion) (gap : Gap) : Bool :=
  let wordBefore := gap.before.any words.contains
  let wordAfter := gap.after.any words.contains
  match assertion with
  | .textStart => gap.before.isNone
  | .textEnd => gap.after.isNone
  | .lineStart => gap.before.all (· == '\n')
  | .lineEnd => gap.after.all (· == '\n')
  | .lineStartAfterReturn =>
      gap.before.all fun c => c == '\n' || (c == '\r' && gap.after != some '\n')
  | .lineEndBeforeReturn =>
      gap.after.all fun c => c == '\r' || (c == '\n' && gap.before != some '\r')
  | .wordBoundary => wordBefore != wordAfter
  | .noWordBoundary => wordBefore == wordAfter
  | .wordStart => !wordBefore && wordAfter
  | .wordEnd => wordBefore && !wordAfter
  | .wordStartHalf => !wordBefore
  | .wordEndHalf => !wordAfter

end Assertion

namespace Pattern

def union (left right : List Bool) : List Bool :=
  List.zipWith (· || ·) left right

/-- The places behind a character of the set that follows one of the places. -/
def advance (text : List Char) (set : CharSet) (places : List Bool) : List Bool :=
  false :: List.zipWith (fun c here => here && set.contains c) text places

/-- A function applied so many times. -/
def iterate (f : α → α) : Nat → α → α
  | 0, x => x
  | n + 1, x => iterate f n (f x)

/-- The places where a match may end that starts at one of some places. More rounds of a
repetition than there are places reach nothing new.
-/
def reach (text : List Char) : Pattern → List Bool → List Bool
  | .empty, places => places
  | .char set, places => advance text set places
  | .place words condition, places =>
      List.zipWith (fun gap here => here && condition.holds words gap) (gaps text) places
  | .sequence first second, places => second.reach text (first.reach text places)
  | .either first second, places => union (first.reach text places) (second.reach text places)
  | .repeated pattern least most, places =>
      let rounds := text.length + 1
      let required := iterate (pattern.reach text) (min least rounds) places
      let further := (most.map (· - least)).elim rounds (min rounds)
      iterate (fun places => union places (pattern.reach text places)) further required

def isFoundIn (pattern : Pattern) (text : String) : Bool :=
  let chars := text.toList
  (pattern.reach chars (List.replicate (chars.length + 1) true)).any id

def ofList (patterns : List Pattern) : Pattern :=
  patterns.foldr .sequence .empty

end Pattern

end TreeLint
