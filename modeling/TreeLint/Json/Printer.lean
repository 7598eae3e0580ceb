import TreeLint.Json.Basic

/-!
The written form of a JSON value, on one line or with one member a line.
-/

namespace TreeLint.Json

/-- How much room is left between the parts of a value. -/
structure Layout where
  /-- What stands before a member of a container that is `depth` containers deep, and before the
  closing bracket of one.
  -/
  gap : Nat → List Char
  /-- What stands between a key and its value. -/
  colon : List Char

/-- Everything on one line and without room. -/
def Layout.compact : Layout :=
  { gap := fun _ => [], colon := [':'] }

/-- One member a line, indented by two spaces for each container around it. -/
def Layout.indented : Layout :=
  { gap := fun depth => '\n' :: List.replicate (2 * depth) ' ', colon := [':', ' '] }

/-- The character inside a string. Quotes, backslashes and control characters are escaped, and
nothing else is.
-/
def escape (c : Char) : List Char :=
  if c = '"' then ['\\', '"']
  else if c = '\\' then ['\\', '\\']
  else if c = '\x08' then ['\\', 'b']
  else if c = '\x0c' then ['\\', 'f']
  else if c = '\n' then ['\\', 'n']
  else if c = '\r' then ['\\', 'r']
  else if c = '\t' then ['\\', 't']
  else if c.toNat < 0x20 then
    ['\\', 'u', '0', '0', Nat.digitChar (c.toNat / 16), Nat.digitChar (c.toNat % 16)]
  else [c]

def quote (text : String) : List Char :=
  '"' :: text.toList.flatMap escape ++ ['"']

def quoteUnpaired : List Char :=
  ['"', '\\', 'u', 'd', '8', '0', '0', '"']

def quoteKey (key : Option String) : List Char :=
  (key.map quote).getD quoteUnpaired

def printInteger : Int → List Char
  | .ofNat n => Nat.toDigits 10 n
  | .negSucc n => '-' :: Nat.toDigits 10 (n + 1)

mutual
/-- The written form of a value inside `depth` containers. -/
def print (layout : Layout) (depth : Nat) : Json → List Char
  | .null => ['n', 'u', 'l', 'l']
  | .bool true => ['t', 'r', 'u', 'e']
  | .bool false => ['f', 'a', 'l', 's', 'e']
  | .integer value => printInteger value
  | .decimal literal => literal.toList
  | .string text => quote text
  | .unpaired => quoteUnpaired
  | .array [] => ['[', ']']
  | .array (item :: rest) =>
      '[' :: (layout.gap (depth + 1) ++ print layout (depth + 1) item
        ++ printItems layout depth rest)
  | .object [] => ['\x7b', '\x7d']
  | .object ((key, value) :: rest) =>
      '\x7b' :: (layout.gap (depth + 1) ++ quoteKey key ++ layout.colon
        ++ print layout (depth + 1) value ++ printMembers layout depth rest)

/-- The written form of the items after the first, with the closing bracket. -/
def printItems (layout : Layout) (depth : Nat) : List Json → List Char
  | [] => layout.gap depth ++ [']']
  | item :: rest =>
      ',' :: (layout.gap (depth + 1) ++ print layout (depth + 1) item
        ++ printItems layout depth rest)

/-- The written form of the members after the first, with the closing brace. -/
def printMembers (layout : Layout) (depth : Nat) : List (Option String × Json) → List Char
  | [] => layout.gap depth ++ ['\x7d']
  | (key, value) :: rest =>
      ',' :: (layout.gap (depth + 1) ++ quoteKey key ++ layout.colon
        ++ print layout (depth + 1) value ++ printMembers layout depth rest)
end

def compact (value : Json) : String :=
  String.ofList (value.print .compact 0)

def indented (value : Json) : String :=
  String.ofList (value.print .indented 0)

end TreeLint.Json
