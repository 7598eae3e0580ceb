import TreeLint.Text.Basic
import TreeLint.Toml.Basic

/-!
The parts of TOML text below values: blanks, comments, line ends, strings and keys. A reader takes
the text and gives what it has read and what follows, or nothing where the text is not in the
grammar.
-/

namespace TreeLint.Toml

abbrev Reader (α : Type) : Type :=
  List Char → Option (α × List Char)

/-! ## Blanks and comments -/

def isBlank (c : Char) : Bool :=
  c = ' ' || c = '\t'

def skipBlanks (text : List Char) : List Char :=
  text.dropWhile isBlank

/-- The characters that may stand by themselves in comments and literal strings. -/
def isShown (c : Char) : Bool :=
  c = '\t' || (0x20 ≤ c.toNat && c.toNat != 0x7f)

/-- The text behind a comment that may be at its start. -/
def skipComment : List Char → List Char
  | '#' :: rest => rest.dropWhile isShown
  | text => text

def lineEnd? : List Char → Option (List Char)
  | '\n' :: rest | '\r' :: '\n' :: rest => some rest
  | _ => none

/-- The text behind the rest of a line, in which only a comment may stand. -/
def finishLine? (text : List Char) : Option (List Char) :=
  match skipComment (skipBlanks text) with
  | [] => some []
  | rest => lineEnd? rest

/-- The text behind blanks, line ends and comments. The bound is a number of such parts. -/
def skipLines : Nat → List Char → List Char
  | 0, text => text
  | bound + 1, text =>
      match skipComment (skipBlanks text) with
      | '\n' :: rest | '\r' :: '\n' :: rest => skipLines bound rest
      | rest => rest

/-- The text behind all blanks, line ends and comments at its start. -/
def skipSpace (text : List Char) : List Char :=
  skipLines text.length text

/-! ## Strings -/

/-- The character of a code point given by so many hexadecimal digits. -/
def readCode (count : Nat) : Reader Char := fun text => do
  let code ← Text.readDigits? 16 (text.take count)
  if text.length < count ∨ ¬code.isValidChar then none
  else return (Char.ofNat code, text.drop count)

/-- The character that an escape stands for, behind its backslash. -/
def readEscape : Reader Char
  | 'b' :: rest => some ('\x08', rest)
  | 'f' :: rest => some ('\x0c', rest)
  | 'n' :: rest => some ('\n', rest)
  | 'r' :: rest => some ('\r', rest)
  | 't' :: rest => some ('\t', rest)
  | '\\' :: rest => some ('\\', rest)
  | '"' :: rest => some ('"', rest)
  | 'u' :: rest => readCode 4 rest
  | 'U' :: rest => readCode 8 rest
  | _ => none

/-- A string on one line with escapes, behind its quote. The bound is a number of characters. -/
def readBasic : Nat → Reader (List Char)
  | 0, _ => none
  | bound + 1, text =>
      match text with
      | '"' :: rest => some ([], rest)
      | '\\' :: rest => do
          let (c, rest) ← readEscape rest
          let (more, rest) ← readBasic bound rest
          return (c :: more, rest)
      | c :: rest =>
          if isShown c then do
            let (more, rest) ← readBasic bound rest
            return (c :: more, rest)
          else
            none
      | [] => none

/-- A string on one line without escapes, behind its quote. -/
def readLiteral (text : List Char) : Option (List Char × List Char) :=
  match text.span fun c => isShown c && c != '\'' with
  | (chars, '\'' :: rest) => some (chars, rest)
  | _ => none

/-- The text behind a backslash that joins two lines: the line end and all blanks and line ends
behind it.
-/
def joinLines? (text : List Char) : Option (List Char) :=
  (lineEnd? (skipBlanks text)).map fun rest =>
    skipLineEnds rest.length rest
where
  skipLineEnds : Nat → List Char → List Char
    | 0, text => text
    | bound + 1, text =>
        match lineEnd? (skipBlanks text) with
        | some rest => skipLineEnds bound rest
        | none => skipBlanks text

/-- The end of a string on several lines, with up to two quotes of its own right before it. -/
def closeLines? (quote : Char) (text : List Char) : Option (List Char × List Char) :=
  let quotes := text.takeWhile (· == quote)
  if quotes.length < 3 then none
  else
    let own := min (quotes.length - 3) 2
    some (quotes.take own, text.drop (own + 3))

/-- A string on several lines, behind its quotes and a first line end. A line end is the same
however it is written. The bound is a number of characters.
-/
def readLines (quote : Char) (hasEscapes : Bool) : Nat → Reader (List Char)
  | 0, _ => none
  | bound + 1, text =>
      match closeLines? quote text with
      | some closed => some closed
      | none =>
          match text with
          | [] => none
          | '\n' :: rest | '\r' :: '\n' :: rest => do
              let (more, rest) ← readLines quote hasEscapes bound rest
              return ('\n' :: more, rest)
          | c :: rest =>
              if c = '\\' && hasEscapes then
                match joinLines? rest with
                | some rest => readLines quote hasEscapes bound rest
                | none => do
                    let (c, rest) ← readEscape rest
                    let (more, rest) ← readLines quote hasEscapes bound rest
                    return (c :: more, rest)
              else if isShown c then do
                let (more, rest) ← readLines quote hasEscapes bound rest
                return (c :: more, rest)
              else
                none

def readString : Reader String := fun text => do
  let bound := text.length + 1
  let (chars, rest) ←
    match text with
    | '"' :: '"' :: '"' :: rest => readLines '"' true bound ((lineEnd? rest).getD rest)
    | '"' :: rest => readBasic bound rest
    | '\'' :: '\'' :: '\'' :: rest => readLines '\'' false bound ((lineEnd? rest).getD rest)
    | '\'' :: rest => readLiteral rest
    | _ => none
  return (String.ofList chars, rest)

/-! ## Keys -/

def isBare (c : Char) : Bool :=
  c.isAlphanum || c = '_' || c = '-'

def readPart : Reader String
  | '"' :: rest => (readBasic (rest.length + 1) rest).map fun (chars, rest) =>
      (String.ofList chars, rest)
  | '\'' :: rest => (readLiteral rest).map fun (chars, rest) => (String.ofList chars, rest)
  | text =>
      match text.span isBare with
      | ([], _) => none
      | (chars, rest) => some (String.ofList chars, rest)

/-- The parts of a key, at most as many as the bound, with blanks around each. -/
def readParts : Nat → Reader (List String)
  | 0, _ => none
  | bound + 1, text => do
      let (part, rest) ← readPart (skipBlanks text)
      match skipBlanks rest with
      | '.' :: rest =>
          let (more, rest) ← readParts bound rest
          return (part :: more, rest)
      | rest => return ([part], rest)

/-- How many containers may stand inside each other, counted by keys and by brackets. -/
def nestingLimit : Nat := 79

/-- A key of one part or of several with dots between them. -/
def readKey : Reader (List String) :=
  readParts nestingLimit

end TreeLint.Toml
