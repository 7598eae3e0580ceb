import TreeLint.Pattern.Escape

/-!
Classes in brackets: items, ranges, named classes and classes inside each other, joined by set
operations.
-/

namespace TreeLint.Pattern.Reader

def readItem : Reader Atom := do
  let c ← next
  if c = '\\' then readEscape else return .literal c

def itemSet : Atom → Reader CharSet
  | .literal c => return .single c
  | .set set => return set
  | .assertion _ => failure

def itemChar : Atom → Reader Char
  | .literal c => return c
  | _ => failure

def readRange : Reader CharSet := do
  let first ← readItem
  skipSpaces
  let spaced := (← flags).spaced
  match ← remaining with
  | '-' :: rest =>
      let behind := if spaced then dropSpaces false rest else rest
      if behind.head? = some ']' ∨ behind.head? = some '-' then
        itemSet first
      else
        continueWith behind
        let last ← readItem
        let first ← itemChar first
        let last ← itemChar last
        if first ≤ last then return .range first last else failure
  | _ => itemSet first

/-- A class of plain characters in brackets and colons, behind its bracket. Anything else is left
unread.
-/
def readNamedClass? : Reader (Option CharSet) := do
  let start ← remaining
  match start with
  | ':' :: rest =>
      let (isNegated, rest) := match rest with
        | '^' :: rest => (true, rest)
        | _ => (false, rest)
      match rest.span (· != ':') with
      | (name, ':' :: ']' :: rest) =>
          match CharSet.ofClassName? (String.ofList name) with
          | some set =>
              continueWith rest
              let set := if (← flags).ignoreCase then .anyCase set else set
              return some (if isNegated then .complement set else set)
          | none => return none
      | _ => return none
  | _ => return none

/-- How two sets of a class are joined. -/
abbrev Joint : Type :=
  CharSet → CharSet → CharSet

/-- The set so far, joined with what stands before it. -/
def joinPending (pending : Option (Joint × CharSet)) (set : CharSet) : Reader CharSet := do
  match pending with
  | none => return set
  | some (joint, left) =>
      if (← flags).ignoreCase then return joint (.anyCase left) (.anyCase set)
      else return joint left set

def takeJoint? : Reader (Option Joint) := do
  if ← take? ['&', '&'] then return some .intersection
  else if ← take? ['-', '-'] then return some .difference
  else if ← take? ['~', '~'] then return some .symmetricDifference
  else return none

/-- The dashes at the start of a class, which stand for themselves. -/
def readDashes : Nat → CharSet → Reader CharSet
  | 0, set => return set
  | fuel + 1, set => do
      if ← take? ['-'] then
        skipSpaces
        readDashes fuel (.union set (.single '-'))
      else
        return set

mutual
def readClass : Nat → Reader CharSet
  | 0 => failure
  | fuel + 1 => do
      skipSpaces
      let isNegated ← take? ['^']
      skipSpaces
      let dashes ← readDashes fuel .nothing
      let start ←
        if (dashes matches .nothing) && (← take? [']']) then pure (.single ']')
        else pure dashes
      let set ← readClassBody fuel none start
      let set := if (← flags).ignoreCase then .anyCase set else set
      if isNegated then return .complement set else return set

/-- The rest of a class, up to its closing bracket. -/
def readClassBody : Nat → Option (Joint × CharSet) → CharSet → Reader CharSet
  | 0, _, _ => failure
  | fuel + 1, pending, set => do
      skipSpaces
      if ← take? [']'] then
        joinPending pending set
      else if ← take? ['['] then
        match ← readNamedClass? with
        | some named => readClassBody fuel pending (.union set named)
        | none =>
            let inner ← readClass fuel
            readClassBody fuel pending (.union set inner)
      else
        match ← takeJoint? with
        | some joint =>
            let left ← joinPending pending set
            readClassBody fuel (some (joint, left)) .nothing
        | none =>
            let range ← readRange
            readClassBody fuel pending (.union set range)
end

end TreeLint.Pattern.Reader
