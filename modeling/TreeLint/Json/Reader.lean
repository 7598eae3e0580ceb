import TreeLint.Json.Basic
import TreeLint.Text.Basic

/-!
Reading JSON text. The grammar is the strict one: no comments, no trailing commas, no leading
zeros, no raw control characters in strings. Depth and size of a value are not limited here.
-/

namespace TreeLint.Json

/-- The characters that may stand between tokens. -/
def isBlank (c : Char) : Bool :=
  c = ' ' || c = '\n' || c = '\t' || c = '\r'

def skipBlanks (text : List Char) : List Char :=
  text.dropWhile isBlank

def hexValue4? (a b c d : Char) : Option Nat :=
  Text.readDigits? 16 [a, b, c, d]

/-- The character that a one-letter escape stands for. -/
def unescape? : Char → Option Char
  | '"' => some '"'
  | '\\' => some '\\'
  | '/' => some '/'
  | 'b' => some '\x08'
  | 'f' => some '\x0c'
  | 'n' => some '\n'
  | 'r' => some '\r'
  | 't' => some '\t'
  | _ => none

/-- The code units of a string, up to its closing quote: characters, and the values that numeric
escapes give. Returns the text behind the quote.
-/
def readUnits : List Char → Option (List (Char ⊕ Nat) × List Char)
  | '"' :: rest => some ([], rest)
  | '\\' :: 'u' :: a :: b :: c :: d :: rest => do
      let unit ← hexValue4? a b c d
      let (units, rest) ← readUnits rest
      return (.inr unit :: units, rest)
  | '\\' :: c :: rest => do
      let char ← unescape? c
      let (units, rest) ← readUnits rest
      return (.inl char :: units, rest)
  | c :: rest =>
      if c.toNat < 0x20 || c = '\\' then
        none
      else do
        let (units, rest) ← readUnits rest
        return (.inl c :: units, rest)
  | [] => none

/-- The text that code units denote: a high surrogate and the low one behind it make one
character. A surrogate without its partner denotes nothing.
-/
def joinUnits : List (Char ⊕ Nat) → Option (List Char)
  | [] => some []
  | .inl c :: rest => (joinUnits rest).map (c :: ·)
  | .inr high :: .inr low :: rest =>
      if 0xD800 ≤ high ∧ high < 0xDC00 then
        if 0xDC00 ≤ low ∧ low < 0xE000 then
          (joinUnits rest).map
            (Char.ofNat (0x10000 + (high - 0xD800) * 0x400 + (low - 0xDC00)) :: ·)
        else
          none
      else if 0xDC00 ≤ high ∧ high < 0xE000 then
        none
      else
        (joinUnits (.inr low :: rest)).map (Char.ofNat high :: ·)
  | .inr unit :: rest =>
      if 0xD800 ≤ unit ∧ unit < 0xE000 then
        none
      else
        (joinUnits rest).map (Char.ofNat unit :: ·)

/-- A string behind its opening quote: the text it denotes, if any, and what follows it. -/
def readString (text : List Char) : Option (Option String × List Char) := do
  let (units, rest) ← readUnits text
  return ((joinUnits units).map String.ofList, rest)

/-- The digits at the start of a text, at least one, and what follows them. -/
def readDigits (text : List Char) : Option (List Char × List Char) :=
  match text.span Char.isDigit with
  | ([], _) => none
  | (digits, rest) => some (digits, rest)

/-- The whole part of a number, which has no leading zero. -/
def readWhole : List Char → Option (List Char × List Char)
  | '0' :: rest => some (['0'], rest)
  | text => readDigits text

def readFraction : List Char → Option (List Char × List Char)
  | '.' :: rest => do
      let (digits, rest) ← readDigits rest
      return ('.' :: digits, rest)
  | text => some ([], text)

def readExponent : List Char → Option (List Char × List Char)
  | c :: rest =>
      if c = 'e' || c = 'E' then do
        let (sign, rest) := match rest with
          | '+' :: rest => (['+'], rest)
          | '-' :: rest => (['-'], rest)
          | _ => ([], rest)
        let (digits, rest) ← readDigits rest
        return (c :: sign ++ digits, rest)
      else
        some ([], c :: rest)
  | [] => some ([], [])

def readNumber (text : List Char) : Option (Json × List Char) := do
  let (negative, text) := match text with
    | '-' :: rest => (true, rest)
    | _ => (false, text)
  let (whole, text) ← readWhole text
  let (fraction, text) ← readFraction text
  let (exponent, text) ← readExponent text
  let magnitude := Nat.ofDigitChars 10 whole 0
  if fraction.isEmpty && exponent.isEmpty && !(negative && magnitude == 0) then
    return (.integer (if negative then -(magnitude : Int) else magnitude), text)
  else
    let sign := if negative then ['-'] else []
    return (.decimal (String.ofList (sign ++ whole ++ fraction ++ exponent)), text)

mutual
/-- A value and what follows it. Each call of the three readers takes one unit of fuel, and
of two calls in a row at least one consumes a character.
-/
def readValue : Nat → List Char → Option (Json × List Char)
  | 0, _ => none
  | fuel + 1, text =>
      match skipBlanks text with
      | '"' :: rest => do
          let (denoted, rest) ← readString rest
          return (denoted.elim .unpaired .string, rest)
      | '[' :: rest =>
          match skipBlanks rest with
          | ']' :: rest => some (.array [], rest)
          | rest => do
              let (items, rest) ← readItems fuel rest
              return (.array items, rest)
      | '\x7b' :: rest =>
          match skipBlanks rest with
          | '\x7d' :: rest => some (.object [], rest)
          | rest => do
              let (members, rest) ← readMembers fuel rest
              return (.object members, rest)
      | 'n' :: 'u' :: 'l' :: 'l' :: rest => some (.null, rest)
      | 't' :: 'r' :: 'u' :: 'e' :: rest => some (.bool true, rest)
      | 'f' :: 'a' :: 'l' :: 's' :: 'e' :: rest => some (.bool false, rest)
      | rest => readNumber rest

/-- The items of an array, at least one, up to the closing bracket. -/
def readItems : Nat → List Char → Option (List Json × List Char)
  | 0, _ => none
  | fuel + 1, text => do
      let (item, rest) ← readValue fuel text
      match skipBlanks rest with
      | ',' :: rest =>
          let (items, rest) ← readItems fuel rest
          return (item :: items, rest)
      | ']' :: rest => return ([item], rest)
      | _ => none

/-- The members of an object, at least one, up to the closing brace. -/
def readMembers : Nat → List Char → Option (List (Option String × Json) × List Char)
  | 0, _ => none
  | fuel + 1, text =>
      match skipBlanks text with
      | '"' :: rest => do
          let (key, rest) ← readString rest
          match skipBlanks rest with
          | ':' :: rest =>
              let (value, rest) ← readValue fuel rest
              match skipBlanks rest with
              | ',' :: rest =>
                  let (members, rest) ← readMembers fuel rest
                  return ((key, value) :: members, rest)
              | '\x7d' :: rest => return ([(key, value)], rest)
              | _ => none
          | _ => none
      | _ => none
end

def read? (text : String) : Option Json :=
  let chars := text.toList
  match readValue (2 * chars.length + 2) chars with
  | some (value, rest) => if (skipBlanks rest).isEmpty then some value else none
  | none => none

end TreeLint.Json
