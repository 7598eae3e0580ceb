/-!
Characters and cells of text: white space in the sense of the Unicode property `White_Space` with
trimming by it, digits of numbers in several bases, and the columns of a printed table, in which a
cell is padded with spaces to its width, counted in characters.
-/

namespace TreeLint.Text

-----------------------------------------------------------------------------------------
-- White space
-----------------------------------------------------------------------------------------

/-- The characters with the Unicode property `White_Space`. -/
def isBlank (c : Char) : Bool :=
  let n := c.toNat
  (9 ≤ n && n ≤ 13) || n == 0x20 || n == 0x85 || n == 0xA0 || n == 0x1680
    || (0x2000 ≤ n && n ≤ 0x200A) || n == 0x2028 || n == 0x2029 || n == 0x202F || n == 0x205F
    || n == 0x3000

def dropBlanksRight (text : List Char) : List Char :=
  (text.reverse.dropWhile isBlank).reverse

def dropBlanks (text : List Char) : List Char :=
  dropBlanksRight (text.dropWhile isBlank)

/-- Nothing but blanks is cut: the rest of the text, put back, gives the text. -/
theorem dropBlanksRight_append (text : List Char)
    : ∃ blanks, text = dropBlanksRight text ++ blanks ∧ ∀ c ∈ blanks, isBlank c = true := by
  refine ⟨(text.reverse.takeWhile isBlank).reverse, ?_, ?_⟩
  · rw [dropBlanksRight, ← List.reverse_append, List.takeWhile_append_dropWhile,
      List.reverse_reverse]
  · intro c hc
    have hall := List.all_takeWhile (p := isBlank) (l := text.reverse)
    exact List.all_eq_true.mp hall c (List.mem_reverse.mp hc)

-----------------------------------------------------------------------------------------
-- Digits
-----------------------------------------------------------------------------------------

/-- The value of a hexadecimal digit of either case. -/
def hexDigit? (c : Char) : Option Nat :=
  if c.isDigit then some (c.toNat - '0'.toNat)
  else if 'a' ≤ c ∧ c ≤ 'f' then some (c.toNat - 'a'.toNat + 10)
  else if 'A' ≤ c ∧ c ≤ 'F' then some (c.toNat - 'A'.toNat + 10)
  else none

/-- The value of a digit in a base of at most sixteen. -/
def digit? (base : Nat) (c : Char) : Option Nat :=
  (hexDigit? c).filter (· < base)

def ofDigitValues (base : Nat) (values : List Nat) : Nat :=
  values.foldl (base * · + ·) 0

def readDigits? (base : Nat) (digits : List Char) : Option Nat :=
  (digits.mapM (digit? base)).map (ofDigitValues base)

-----------------------------------------------------------------------------------------
-- Columns and names
-----------------------------------------------------------------------------------------

/-- The cell at the left of its column. A cell wider than its column is printed whole. -/
def alignLeft (width : Nat) (cell : String) : String :=
  cell ++ String.ofList (List.replicate (width - cell.length) ' ')

def alignRight (width : Nat) (cell : String) : String :=
  String.ofList (List.replicate (width - cell.length) ' ') ++ cell

/-- The text with its first character in upper case, for plain letters. -/
def capitalize : List Char → List Char
  | [] => []
  | c :: rest => c.toUpper :: rest

/-- The words of a name joined by underscores, written together with capitals. -/
def joinCapitalized (name : String) : String :=
  String.ofList ((name.toList.splitOnP (· == '_')).flatMap capitalize)

end TreeLint.Text
