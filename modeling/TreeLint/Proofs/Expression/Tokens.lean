import TreeLint.Node.Operator

/-! The tokens of an expression of Java. They are read character by character, each as long as it
may be. The expressions are those that a tree has nodes for, and those that begin with a sign:
there are names, literals, calls, objects created and binary operators, but no casts, arrays,
types, assignments or choices. Text that is no such expression need not have tokens.
-/

namespace TreeLint

inductive Token where
  | name (text : String)
  | literal (text : String)
  /-- The word `new`. -/
  | creation
  /-- The word `super`. -/
  | parent
  | dot
  | comma
  | opening
  | closing
  | complement
  | negation
  | operator (operator : Operator)
  deriving DecidableEq, Repr

namespace Token

-----------------------------------------------------------------------------------------
-- Whole tokens
-----------------------------------------------------------------------------------------

/-- The words that are no names and stand for nothing in these expressions. -/
def reserved : List String :=
  ["_", "abstract", "assert", "boolean", "break", "byte", "case", "catch", "char", "class",
    "const", "continue", "default", "do", "double", "else", "enum", "extends", "final", "finally",
    "float", "for", "goto", "if", "implements", "import", "instanceof", "int", "interface",
    "long", "native", "package", "private", "protected", "public", "return", "short", "static",
    "strictfp", "switch", "synchronized", "throw", "throws", "transient", "try", "void",
    "volatile", "while"]

/-- The symbols made of the characters of operators, those of no use here included. -/
def symbols : List String :=
  ["+", "-", "*", "/", "%", "&", "|", "^", "<", ">", "=", "!", "++", "--", "->", "&&", "||", "<<",
    ">>", ">>>", "==", "!=", "<=", ">=", "+=", "-=", "*=", "/=", "%=", "&=", "|=", "^=", "<<=",
    ">>=", ">>>="]

/-- A number written in some digits, with underscores between them. -/
def isNumeral (isDigit : Char → Bool) (chars : List Char) : Bool :=
  chars.head?.any isDigit && chars.getLast?.any isDigit
    && chars.all fun c => isDigit c || c == '_'

def isHexDigit (c : Char) : Bool :=
  c.isDigit || ('a' ≤ c && c ≤ 'f') || ('A' ≤ c && c ≤ 'F')

def isOctalDigit (c : Char) : Bool :=
  '0' ≤ c && c ≤ '7'

/-- A whole number without a mark of its type. A zero in front makes it an octal one. -/
def isUnmarkedInteger : List Char → Bool
  | '0' :: 'x' :: digits | '0' :: 'X' :: digits => isNumeral isHexDigit digits
  | '0' :: 'b' :: digits | '0' :: 'B' :: digits => isNumeral (fun c => c == '0' || c == '1') digits
  | '0' :: digits => isNumeral isOctalDigit ('0' :: digits)
  | digits => isNumeral Char.isDigit digits

/-- A whole number, which may be marked as a `long`. -/
def isInteger (chars : List Char) : Bool :=
  isUnmarkedInteger chars
    || chars.getLast?.any (fun c => c == 'l' || c == 'L') && isUnmarkedInteger chars.dropLast

def ofWord? (chars : List Char) : Option Token :=
  let word := String.ofList chars
  if chars.head?.any Char.isDigit then
    if isInteger chars then some (.literal word) else none
  else if word = "new" then
    some .creation
  else if word = "super" then
    some .parent
  else if ["true", "false", "null", "this"].contains word then
    some (.literal word)
  else if reserved.contains word then
    none
  else
    some (.name word)

def ofSymbol? (symbol : String) : Option Token :=
  if symbol = "!" then some .negation else (Operator.ofSymbol? symbol).map .operator

/-- A text or a character between quotes, which are given with what is between them. -/
def ofQuoted? (quote : Char) (inside : List Char) : Option Token :=
  let isCharacter := inside.length = 1 ∨ inside.length = 2 ∧ inside.head? = some '\\'
  if quote = '"' ∨ isCharacter then
    some (.literal (String.ofList (quote :: inside ++ [quote])))
  else
    none

-----------------------------------------------------------------------------------------
-- Characters
-----------------------------------------------------------------------------------------

def isBlank (c : Char) : Bool :=
  [' ', '\t', '\n', '\r', '\x0c'].contains c

def isWordChar (c : Char) : Bool :=
  c.isAlphanum || c == '_' || c == '$'

def isSymbolChar (c : Char) : Bool :=
  ['+', '-', '*', '/', '%', '&', '|', '^', '<', '>', '=', '!'].contains c

/-- What may follow a backslash between quotes. -/
def isEscape (c : Char) : Bool :=
  ['b', 't', 'n', 'f', 'r', 's', '"', '\'', '\\'].contains c

/-- The tokens of one character that none other continues. -/
def ofChar? : Char → Option Token
  | '.' => some .dot
  | ',' => some .comma
  | '(' => some .opening
  | ')' => some .closing
  | '~' => some .complement
  | _ => none

/-- What has been read of the last token, the last character first. -/
inductive Start where
  | nothing
  | word (chars : List Char)
  | symbol (chars : List Char)
  | quoted (quote : Char) (chars : List Char) (escaped : Bool)
  | closed (quote : Char) (chars : List Char)
  deriving DecidableEq

namespace Start

/-- The start of a token as a whole token, if there is one. -/
def tokens? : Start → Option (List Token)
  | .nothing => some []
  | .word chars => (ofWord? chars.reverse).map ([·])
  | .symbol chars => (ofSymbol? (String.ofList chars.reverse)).map ([·])
  | .quoted _ _ _ => none
  | .closed quote chars => (ofQuoted? quote chars.reverse).map ([·])

/-- The start of a token with a character that continues it. -/
def extend? (c : Char) : Start → Option Start
  | .nothing => none
  | .word chars =>
      if isWordChar c ∨ c = '.' ∧ chars.getLast?.any Char.isDigit then
        some (.word (c :: chars))
      else
        none
  | .symbol chars =>
      if symbols.contains (String.ofList (c :: chars).reverse) then
        some (.symbol (c :: chars))
      else
        none
  | .quoted quote chars true => if isEscape c then some (.quoted quote (c :: chars) false) else none
  | .quoted quote chars false =>
      if c = quote then some (.closed quote chars)
      else if c = '\n' ∨ c = '\r' then none
      else some (.quoted quote (c :: chars) (c == '\\'))
  | .closed _ _ => none

end Start

/-- The tokens that have been read, the last first, and the start of another one. -/
structure Progress where
  tokens : List Token
  start : Start
  deriving DecidableEq

namespace Progress

/-- The tokens if nothing follows. -/
def finish? (progress : Progress) : Option (List Token) :=
  progress.start.tokens?.map (· ++ progress.tokens)

/-- A character that continues no token, after some tokens. -/
def begin? (tokens : List Token) (c : Char) : Option Progress :=
  if isBlank c then some { tokens, start := .nothing }
  else if isWordChar c then some { tokens, start := .word [c] }
  else if isSymbolChar c then some { tokens, start := .symbol [c] }
  else if c = '"' ∨ c = '\'' then some { tokens, start := .quoted c [] false }
  else (ofChar? c).map fun token => { tokens := token :: tokens, start := .nothing }

/-- One character more. -/
def step? (progress : Progress) (c : Char) : Option Progress :=
  match progress.start.extend? c with
  | some start => some { progress with start }
  | none => progress.finish?.bind (begin? · c)

/-- The characters one after the other. -/
def run? (chars : List Char) (progress : Progress) : Option Progress :=
  chars.foldlM step? progress

/-- No tokens, and no start of one. -/
def empty : Progress :=
  { tokens := [], start := .nothing }

end Progress

/-- The tokens of a text, if it has some. -/
def ofText? (text : String) : Option (List Token) :=
  ((Progress.run? text.toList .empty).bind Progress.finish?).map List.reverse

-----------------------------------------------------------------------------------------
-- Texts put together
-----------------------------------------------------------------------------------------

namespace Progress

/-- What has been read after some tokens. -/
def after (progress : Progress) (tokens : List Token) : Progress :=
  { progress with tokens := progress.tokens ++ tokens }

variable {progress : Progress} {tokens : List Token}

theorem finish?_after : (progress.after tokens).finish? = progress.finish?.map (· ++ tokens) := by
  rw [finish?, finish?, Option.map_map]
  congr 1
  funext last
  exact (List.append_assoc _ _ _).symm

theorem begin?_after {before : List Token} {c : Char}
    : begin? (before ++ tokens) c = (begin? before c).map (·.after tokens) := by
  simp only [begin?]
  split
  · rfl
  split
  · rfl
  split
  · rfl
  split
  · rfl
  cases ofChar? c <;> rfl

/-- The tokens before do not matter for a step. -/
theorem step?_after {c : Char}
    : (progress.after tokens).step? c = (progress.step? c).map (·.after tokens) := by
  rw [step?, step?, show (progress.after tokens).start = progress.start from rfl]
  cases progress.start.extend? c with
  | some start => rfl
  | none =>
      dsimp only
      rw [finish?_after]
      cases progress.finish? with
      | none => rfl
      | some before => exact begin?_after

/-- The tokens before do not matter for a run, by induction on the characters. -/
theorem run?_after (chars : List Char)
    : run? chars (progress.after tokens) = (run? chars progress).map (·.after tokens) := by
  induction chars generalizing progress with
  | nil => rfl
  | cons c rest ih =>
      rw [run?, run?, List.foldlM_cons, List.foldlM_cons, step?_after]
      cases progress.step? c with
      | none => rfl
      | some next => exact ih

theorem run?_append (chars more : List Char)
    : run? (chars ++ more) progress = (run? chars progress).bind (run? more) :=
  List.foldlM_append

/-- A blank continues no token that is complete. -/
theorem extend?_blank {last : List Token} (complete : progress.start.tokens? = some last)
    : progress.start.extend? ' ' = none := by
  cases start : progress.start with
  | nothing => rfl
  | word chars => rfl
  | symbol chars =>
      have blankless : ∀ symbol ∈ symbols, symbol.toList.getLast? ≠ some ' ' := by decide
      refine if_neg fun known => blankless _ (List.contains_iff_mem.mp known) ?_
      rw [String.toList_ofList, List.getLast?_reverse, List.head?_cons]
  | quoted quote chars escaped =>
      rw [start] at complete
      cases complete
  | closed quote chars => rfl

/-- A blank ends the last token. -/
theorem step?_blank (finished : progress.finish? = some tokens)
    : progress.step? ' ' = some (empty.after tokens) := by
  obtain ⟨last, complete, same⟩ := Option.map_eq_some_iff.mp finished
  rw [step?, extend?_blank complete]
  exact congrArg (·.bind (begin? · ' ')) finished

/-- An operator between blanks is one token. -/
theorem run?_operator (operator : Operator) (finished : progress.finish? = some tokens)
    : run? (' ' :: operator.symbol.toList ++ [' ']) progress
      = some (empty.after (.operator operator :: tokens)) := by
  have alone : run? (operator.symbol.toList ++ [' ']) empty
      = some (empty.after [.operator operator]) := by
    cases operator <;> decide
  rw [List.cons_append, run?, List.foldlM_cons, step?_blank finished]
  change run? _ _ = _
  rw [run?_after, alone]
  rfl

end Progress

/-- A `~` before a text is a token before its tokens. -/
theorem ofText?_complement (text : String)
    : ofText? ("~" ++ text) = (ofText? text).map (.complement :: ·) := by
  have first : Progress.run? "~".toList .empty = some (Progress.empty.after [.complement]) := by
    decide
  rw [ofText?, ofText?, String.toList_append, Progress.run?_append, first, Option.bind_some,
    Progress.run?_after]
  cases Progress.run? text.toList .empty with
  | none => rfl
  | some progress =>
      rw [Option.map_some, Option.bind_some, Option.bind_some, Progress.finish?_after]
      cases progress.finish? with
      | none => rfl
      | some tokens => simp

/-- Two texts with an operator between them have their tokens with the operator between them. -/
theorem ofText?_operator {left right : String} {leftTokens rightTokens : List Token}
    (operator : Operator) (leftRead : ofText? left = some leftTokens)
    (rightRead : ofText? right = some rightTokens)
    : ofText? (left ++ " " ++ operator.symbol ++ " " ++ right)
      = some (leftTokens ++ .operator operator :: rightTokens) := by
  obtain ⟨leftLast, leftFinished, rfl⟩ := Option.map_eq_some_iff.mp leftRead
  obtain ⟨rightLast, rightFinished, rfl⟩ := Option.map_eq_some_iff.mp rightRead
  obtain ⟨leftEnd, leftRun, leftFinish⟩ := Option.bind_eq_some_iff.mp leftFinished
  obtain ⟨rightEnd, rightRun, rightFinish⟩ := Option.bind_eq_some_iff.mp rightFinished
  have chars : (left ++ " " ++ operator.symbol ++ " " ++ right).toList
      = left.toList ++ (' ' :: operator.symbol.toList ++ [' ']) ++ right.toList := by
    simp [String.toList_append]
  rw [ofText?, chars, Progress.run?_append, Progress.run?_append, leftRun, Option.bind_some,
    Progress.run?_operator operator leftFinish, Option.bind_some, Progress.run?_after, rightRun,
    Option.map_some, Option.bind_some, Progress.finish?_after, rightFinish]
  simp

end Token

end TreeLint
