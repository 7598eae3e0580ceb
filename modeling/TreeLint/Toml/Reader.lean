import TreeLint.Toml.Draft
import TreeLint.Toml.Number

/-!
Reading TOML documents. A document is first cut into sections, each with the lines behind one
header, and the sections are then put together.
-/

namespace TreeLint.Toml

/-! ## Values -/

def inlineTable? (pairs : List (List String × Value)) : Option Value := do
  return .table (Draft.finishEntries (← Draft.insertAll pairs []))

mutual
/-- A value. Each reader takes one unit of fuel; `room` is the number of containers that may
still open.
-/
def readValue : Nat → Nat → Reader Value
  | 0, _, _ => none
  | fuel + 1, room, text =>
      match text with
      | '"' :: _ | '\'' :: _ => (readString text).map fun (text, rest) => (.string text, rest)
      | '[' :: rest =>
          match room with
          | 0 => none
          | room + 1 => do
              let (items, rest) ← readItems fuel room rest
              return (.array items, rest)
      | '\x7b' :: rest =>
          match room with
          | 0 => none
          | room + 1 =>
              match skipBlanks rest with
              | '\x7d' :: rest => some (.table [], rest)
              | rest => do
                  let (pairs, rest) ← readPairs fuel room rest
                  return (← inlineTable? pairs, rest)
      | 't' :: 'r' :: 'u' :: 'e' :: rest => some (.boolean true, rest)
      | 'f' :: 'a' :: 'l' :: 's' :: 'e' :: rest => some (.boolean false, rest)
      | _ => if startsDate text || startsTime text then readMoment text else readNumber text

/-- The items of an array, up to the closing bracket. A comma may stand behind the last. -/
def readItems : Nat → Nat → Reader (List Value)
  | 0, _, _ => none
  | fuel + 1, room, text =>
      match skipSpace text with
      | ']' :: rest => some ([], rest)
      | text => do
          let (item, rest) ← readValue fuel room text
          match skipSpace rest with
          | ',' :: rest =>
              let (items, rest) ← readItems fuel room rest
              return (item :: items, rest)
          | ']' :: rest => return ([item], rest)
          | _ => none

/-- The entries of a table in braces, at least one, up to the closing brace. -/
def readPairs : Nat → Nat → Reader (List (List String × Value))
  | 0, _, _ => none
  | fuel + 1, room, text => do
      let (key, rest) ← readKey text
      let rest ← expect '=' rest
      let (value, rest) ← readValue fuel room (skipBlanks rest)
      match skipBlanks rest with
      | ',' :: rest =>
          let (pairs, rest) ← readPairs fuel room rest
          return ((key, value) :: pairs, rest)
      | '\x7d' :: rest => return ([(key, value)], rest)
      | _ => none
end

/-! ## Lines -/

inductive Header where
  | table (path : List String)
  /-- Begins one more table of an array. -/
  | item (path : List String)
  deriving DecidableEq, Repr, Inhabited

inductive Line where
  | header (header : Header)
  | pair (key : List String) (value : Value)
  deriving Repr, Inhabited

def readHeader : Reader Header
  | '[' :: '[' :: rest => do
      let (path, rest) ← readKey rest
      return (.item path, ← expect ']' (← expect ']' rest))
  | '[' :: rest => do
      let (path, rest) ← readKey rest
      return (.table path, ← expect ']' rest)
  | _ => none

def readLine : Reader Line := fun text => do
  match text with
  | '[' :: _ =>
      let (header, rest) ← readHeader text
      return (.header header, ← finishLine? rest)
  | _ =>
      let (key, rest) ← readKey text
      let rest ← expect '=' rest
      let (value, rest) ← readValue (2 * text.length + 2) nestingLimit (skipBlanks rest)
      return (.pair key value, ← finishLine? rest)

/-- The lines of a text that are not blank, at most as many as the bound. -/
def readLinesOf : Nat → List Char → Option (List Line)
  | 0, _ => none
  | bound + 1, text =>
      match skipSpace text with
      | [] => some []
      | text => do
          let (line, rest) ← readLine text
          return line :: (← readLinesOf bound rest)

/-! ## Documents -/

structure Part where
  header : Header
  pairs : List (List String × Value)
  deriving Repr, Inhabited

/-- The pairs before the first header, and the parts from there on. -/
def partsOf : List Line → List (List String × Value) × List Part
  | [] => ([], [])
  | .pair key value :: rest =>
      let (pairs, parts) := partsOf rest
      ((key, value) :: pairs, parts)
  | .header header :: rest =>
      let (pairs, parts) := partsOf rest
      ([], { header, pairs } :: parts)

def Draft.alterAt (f : Option Draft → Option Draft) (path : List String)
    (entries : List (String × Draft))
    : Option (List (String × Draft)) :=
  match path.getLast? with
  | none => none
  | some key => Draft.descend (Draft.alter key f) path.dropLast entries

def addPart (entries : List (String × Draft)) (part : Part) : Option (List (String × Draft)) :=
  match part.header with
  | .table path => Draft.alterAt (Draft.openTable part.pairs) path entries
  | .item path => Draft.alterAt (Draft.appendTable part.pairs) path entries

/-- The text without the mark that may show its byte order. -/
def dropByteOrderMark : List Char → List Char
  | '\uFEFF' :: rest => rest
  | text => text

/-- The entries of the document that a text denotes. -/
def read? (text : String) : Option (List (String × Value)) := do
  let chars := dropByteOrderMark text.toList
  let (pairs, parts) := partsOf (← readLinesOf (chars.length + 1) chars)
  let start ← Draft.insertAll pairs []
  return Draft.finishEntries (← parts.foldlM addPart start)

end TreeLint.Toml
