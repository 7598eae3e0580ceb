import TreeLint.Pattern.Bracket

/-!
Reading patterns. The notation is that of regular expressions without look-around and without
references to earlier groups; a text that is not in the notation has no pattern.
-/

namespace TreeLint.Pattern

namespace Reader

/-! ## Groups and their flags -/

/-- Sets or clears a flag. The flag for greed changes nothing about what is found. -/
def setFlag (value : Bool) (flags : Flags) : Char → Option Flags
  | 'i' => some { flags with ignoreCase := value }
  | 'm' => some { flags with multiLine := value }
  | 's' => some { flags with dotTakesAll := value }
  | 'R' => some { flags with returnEndsLine := value }
  | 'x' => some { flags with spaced := value }
  | 'u' => some { flags with unicode := value }
  | 'U' => some flags
  | _ => none

/-- The flags that a group sets, up to the colon or parenthesis behind them. No flag is named
twice, and a minus has a flag behind it.
-/
def readFlags : Nat → List Char → Flags → Reader (List Char × Flags)
  | 0, _, _ => failure
  | fuel + 1, seen, flags => do
      match ← peek? with
      | none => failure
      | some c =>
          if c = ':' ∨ c = ')' then
            if seen.head? = some '-' then failure else return (seen, flags)
          else if seen.contains c then
            failure
          else
            let _ ← next
            if c = '-' then
              readFlags fuel (c :: seen) flags
            else
              match setFlag (!seen.contains '-') flags c with
              | some flags => readFlags fuel (c :: seen) flags
              | none => failure

def startsName (c : Char) : Bool :=
  c = '_' || Text.isLetter c

def inName (c : Char) : Bool :=
  startsName c || Text.isDecimal c || c = '.' || c = '[' || c = ']'

/-- The name of a group, up to the angle bracket behind it. No two groups have the same. -/
def readName : Reader Unit := do
  let (name, rest) := (← remaining).span (· != '>')
  continueWith rest
  expect '>'
  let text := String.ofList name
  let isName := name.head?.any startsName && name.all inName
  if !isName || (← get).names.contains text then
    failure
  modify fun source => { source with names := text :: source.names }

inductive Opening where
  /-- Begins a group in which the flags hold. -/
  | group (flags : Flags)
  /-- Ends right away and sets the flags for what follows. -/
  | flagsOnly (flags : Flags)
  deriving DecidableEq, Repr, Inhabited

def readOpening : Reader Opening := do
  skipSpaces
  let flags ← flags
  if ← take? ['?', 'P', '<'] then
    readName
    return .group flags
  else if ← take? ['?'] then
    match ← remaining with
    | '=' :: _ | '!' :: _ | '<' :: '=' :: _ | '<' :: '!' :: _ => failure
    | '<' :: rest =>
        continueWith rest
        readName
        return .group flags
    | rest =>
        let (seen, inner) ← readFlags (rest.length + 1) [] flags
        if (← next) = ':' then return .group inner
        else if seen.isEmpty then failure
        else return .flagsOnly inner
  else
    return .group flags

/-! ## Patterns -/

def charPattern (set : CharSet) : Reader Pattern := do
  let flags ← flags
  if flags.ignoreCase then
    let set := CharSet.anyCase set
    return .char (if flags.unicode then set else .intersection set .ascii)
  else
    return .char set

def assertionPattern (assertion : Assertion) : Reader Pattern := do
  return .place (if (← flags).unicode then .word else .asciiWord) assertion

def dotPattern : Reader Pattern := do
  let flags ← flags
  if !flags.unicode then failure
  let ends := if flags.returnEndsLine then ['\n', '\r'] else ['\n']
  return .char <|
    if flags.dotTakesAll then .all
    else .complement (CharSet.ofRanges (ends.map fun c => (c, c)))

/-- The pattern of the start or end of a text, or of a line where lines count. -/
def anchorPattern (isStart : Bool) : Reader Pattern := do
  let flags ← flags
  assertionPattern <|
    match isStart, flags.multiLine, flags.returnEndsLine with
    | true, false, _ => .textStart
    | false, false, _ => .textEnd
    | true, true, false => .lineStart
    | false, true, false => .lineEnd
    | true, true, true => .lineStartAfterReturn
    | false, true, true => .lineEndBeforeReturn

/-- The bounds of a repetition, behind its opening brace. -/
def readBounds : Reader (Nat × Option Nat) := do
  let least ← readCount
  let bounds ←
    if ← take? [','] then
      skipSpaces
      if (← peek?) = some '\x7d' then
        pure (least, none)
      else
        let most ← readCount
        if least ≤ most then pure (least, some most) else failure
    else
      pure (least, some least)
  expect '\x7d'
  return bounds

def readRepetition? : Reader (Option (Nat × Option Nat)) := do
  skipSpaces
  if ← take? ['*'] then return some (0, none)
  else if ← take? ['+'] then return some (1, none)
  else if ← take? ['?'] then return some (0, some 1)
  else if ← take? ['\x7b'] then some <$> readBounds
  else return none

/-- The pattern with the repetitions behind it. A question mark right behind a repetition belongs
to it and changes nothing about what is found.
-/
def readRepetitions : Nat → Pattern → Reader Pattern
  | 0, pattern => return pattern
  | fuel + 1, pattern => do
      match ← readRepetition? with
      | none => return pattern
      | some (least, most) =>
          let _ ← take? ['?']
          readRepetitions fuel (.repeated pattern least most)

def atomPattern : Atom → Reader Pattern
  | .literal c => charPattern (.single c)
  | .set set => charPattern set
  | .assertion assertion => assertionPattern assertion

mutual
/-- Patterns with bars between them, up to the end of the group. -/
def readChoice : Nat → Reader Pattern
  | 0 => failure
  | fuel + 1 => do
      let first ← readSequence fuel
      if ← take? ['|'] then
        return .either first (← readChoice fuel)
      else
        return first

/-- Patterns one after the other, up to a bar or the end of the group. A repetition must have
something to repeat.
-/
def readSequence : Nat → Reader Pattern
  | 0 => failure
  | fuel + 1 => do
      skipSpaces
      match ← remaining with
      | [] | '|' :: _ | ')' :: _ => return .empty
      | '*' :: _ | '+' :: _ | '?' :: _ | '\x7b' :: _ => failure
      | '(' :: rest =>
          continueWith rest
          match ← readOpening with
          | .flagsOnly flags =>
              modify ({ · with flags })
              readSequence fuel
          | .group inner =>
              let outer ← flags
              modify ({ · with flags := inner })
              let group ← readChoice fuel
              expect ')'
              modify ({ · with flags := outer })
              readTail fuel group
      | '[' :: rest =>
          continueWith rest
          let set ← readClass fuel
          readTail fuel (.char (← plainSet set))
      | '.' :: rest =>
          continueWith rest
          readTail fuel (← dotPattern)
      | '^' :: rest =>
          continueWith rest
          readTail fuel (← anchorPattern true)
      | '$' :: rest =>
          continueWith rest
          readTail fuel (← anchorPattern false)
      | _ =>
          let atom ← readItem
          readTail fuel (← atomPattern atom)

def readTail : Nat → Pattern → Reader Pattern
  | 0, _ => failure
  | fuel + 1, pattern => do
      let rest ← remaining
      let pattern ← readRepetitions rest.length pattern
      return .sequence pattern (← readSequence fuel)
end

end Reader

def read? (text : String) : Option Pattern :=
  let chars := text.toList
  match (Reader.readChoice (4 * chars.length + 8)).run { rest := chars } with
  | some (pattern, source) => if source.rest.isEmpty then some pattern else none
  | none => none

end TreeLint.Pattern
