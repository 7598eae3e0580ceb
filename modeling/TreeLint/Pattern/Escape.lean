import TreeLint.Pattern.Basic
import TreeLint.Pattern.Property
import TreeLint.Pattern.Source

/-!
Escapes in patterns: single characters, classes with a letter of their own and assertions.
-/

namespace TreeLint.Pattern.Reader

/-- What one character, escaped or not, stands for. -/
inductive Atom where
  | literal (c : Char)
  | set (set : CharSet)
  | assertion (assertion : Assertion)
  deriving Repr, Inhabited

/-- The set, which has only plain characters when others are switched off. -/
def plainSet (set : CharSet) : Reader CharSet := do
  if !(← flags).unicode && set.contains '\u0080' then failure else return set

/-- One of two sets, and its complement if asked for. -/
def classFor (unicode plain : CharSet) (isNegated : Bool) : Reader CharSet := do
  let set := if (← flags).unicode then unicode else plain
  plainSet (if isNegated then .complement set else set)

def readProperty (isNegated : Bool) : Reader CharSet := do
  let name ←
    if ← take? ['\x7b'] then
      let (name, rest) := (← remaining).span (· != '\x7d')
      continueWith rest
      expect '\x7d'
      pure name
    else
      pure [← next]
  if !(← flags).unicode then failure
  match CharSet.ofPropertyName? name with
  | some set => return if isNegated then .complement set else set
  | none => failure

/-- The word boundary that a name in braces stands for. -/
def boundary? : String → Option Assertion
  | "start" => some .wordStart
  | "end" => some .wordEnd
  | "start-half" => some .wordStartHalf
  | "end-half" => some .wordEndHalf
  | _ => none

/-- A word boundary, behind its escape. A name in braces makes it a special one; other braces are
left for a repetition.
-/
def readBoundary : Reader Assertion := do
  match ← remaining with
  | '\x7b' :: rest =>
      let rest := if (← flags).spaced then dropSpaces false rest else rest
      let (name, behind) := rest.span fun c => c.isAlpha || c = '-'
      if rest.isEmpty then failure
      else if name.isEmpty then return .wordBoundary
      else
        continueWith behind
        expect '\x7d'
        match boundary? (String.ofList name) with
        | some assertion => return assertion
        | none => failure
  | _ => return .wordBoundary

/-- The characters that stand for themselves when escaped although they are letters or digits in no
case: all plain ones but letters, digits and angle brackets.
-/
def mayBeEscaped (c : Char) : Bool :=
  c.toNat < 0x80 && !c.isAlphanum && c != '<' && c != '>'

/-- What an escape stands for, behind its backslash. -/
def readEscape : Reader Atom := do
  let c ← next
  match c with
  | 'x' => .literal <$> readCode 2
  | 'u' => .literal <$> readCode 4
  | 'U' => .literal <$> readCode 8
  | 'p' => .set <$> readProperty false
  | 'P' => .set <$> readProperty true
  | 'd' => .set <$> classFor .decimal .asciiDigit false
  | 'D' => .set <$> classFor .decimal .asciiDigit true
  | 's' => .set <$> classFor .blank .asciiSpace false
  | 'S' => .set <$> classFor .blank .asciiSpace true
  | 'w' => .set <$> classFor .word .asciiWord false
  | 'W' => .set <$> classFor .word .asciiWord true
  | 'a' => return .literal '\x07'
  | 'f' => return .literal '\x0c'
  | 't' => return .literal '\t'
  | 'n' => return .literal '\n'
  | 'r' => return .literal '\r'
  | 'v' => return .literal '\x0b'
  | 'A' => return .assertion .textStart
  | 'z' => return .assertion .textEnd
  | 'b' => .assertion <$> readBoundary
  | 'B' => return .assertion .noWordBoundary
  | '<' => return .assertion .wordStart
  | '>' => return .assertion .wordEnd
  | c => if mayBeEscaped c then return .literal c else failure

end TreeLint.Pattern.Reader
