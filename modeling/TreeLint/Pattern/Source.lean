import TreeLint.Text.Basic

/-!
The text of a pattern while it is read, with what it has set so far: which flags hold, and which
groups have names.
-/

namespace TreeLint.Pattern

structure Flags where
  ignoreCase : Bool := false
  /-- The ends of lines count as ends of the text. -/
  multiLine : Bool := false
  /-- The dot takes ends of lines, too. -/
  dotTakesAll : Bool := false
  returnEndsLine : Bool := false
  /-- White space and comments in the pattern mean nothing. -/
  spaced : Bool := false
  /-- Classes take characters beyond the plain ones. -/
  unicode : Bool := true
  deriving DecidableEq, Repr, Inhabited

/-- The text still to be read, and what the text so far has set. -/
structure Source where
  rest : List Char
  flags : Flags := { }
  names : List String := []
  deriving Repr, Inhabited

/-- Reads from a source, or finds that it is not in the notation. -/
abbrev Reader (α : Type) : Type :=
  StateT Source Option α

namespace Reader

/-- The text without spaces and comments at its start. -/
def dropSpaces (inComment : Bool) : List Char → List Char
  | [] => []
  | c :: rest =>
      if inComment then dropSpaces (c != '\n') rest
      else if Text.isBlank c then dropSpaces false rest
      else if c = '#' then dropSpaces true rest
      else c :: rest

def remaining : Reader (List Char) := do
  return (← get).rest

def continueWith (rest : List Char) : Reader Unit :=
  modify ({ · with rest })

def flags : Reader Flags := do
  return (← get).flags

/-- Passes over spaces and comments, where they mean nothing. -/
def skipSpaces : Reader Unit := do
  if (← flags).spaced then
    modify fun source => { source with rest := dropSpaces false source.rest }

def peek? : Reader (Option Char) := do
  return (← remaining).head?

def next : Reader Char := do
  match ← remaining with
  | [] => failure
  | c :: rest =>
      continueWith rest
      return c

/-- Takes the given characters if they come next. -/
def take? (expected : List Char) : Reader Bool := do
  let rest ← remaining
  if expected.isPrefixOf rest then
    continueWith (rest.drop expected.length)
    return true
  else
    return false

def expect (c : Char) : Reader Unit := do
  if (← next) = c then return () else failure

/-! ## Numbers and single characters -/

def maxCount : Nat := 4294967295

def readCount : Reader Nat := do
  let rest := (← remaining).dropWhile Text.isBlank
  let (digits, rest) := rest.span Char.isDigit
  continueWith (rest.dropWhile Text.isBlank)
  let count := Nat.ofDigitChars 10 digits 0
  if digits.isEmpty || maxCount < count then failure else return count

/-- The character with the code point that hexadecimal digits give. -/
def charOfDigits (digits : List Char) : Reader Char := do
  let code ← Text.readDigits? 16 digits
  if digits.isEmpty || !code.isValidChar then failure else return Char.ofNat code

/-- The character after an escape by code point, with so many digits or with any in braces. -/
def readCode (count : Nat) : Reader Char := do
  if ← take? ['\x7b'] then
    let (digits, rest) := (← remaining).span (· != '\x7d')
    continueWith rest
    expect '\x7d'
    charOfDigits digits
  else
    let rest ← remaining
    continueWith (rest.drop count)
    if rest.length < count then failure else charOfDigits (rest.take count)

end Reader

end TreeLint.Pattern
