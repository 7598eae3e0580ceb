import TreeLint.Text.CategoryTable

/-!
The general category of a character, the sets of characters made from categories, and text in quotes
for a reader who wants to see every character.
-/

namespace TreeLint.Text

inductive Category where
  | uppercaseLetter
  | lowercaseLetter
  | titlecaseLetter
  | modifierLetter
  | otherLetter
  | nonspacingMark
  | spacingMark
  | enclosingMark
  | decimalNumber
  | letterNumber
  | otherNumber
  | connectorPunctuation
  | dashPunctuation
  | openPunctuation
  | closePunctuation
  | initialPunctuation
  | finalPunctuation
  | otherPunctuation
  | mathSymbol
  | currencySymbol
  | modifierSymbol
  | otherSymbol
  | spaceSeparator
  | lineSeparator
  | paragraphSeparator
  | control
  | format
  | surrogate
  | privateUse
  | unassigned
  deriving DecidableEq, Repr, Inhabited

namespace Category

def all : List Category :=
  [.uppercaseLetter, .lowercaseLetter, .titlecaseLetter, .modifierLetter, .otherLetter,
    .nonspacingMark, .spacingMark, .enclosingMark, .decimalNumber, .letterNumber,
    .otherNumber, .connectorPunctuation, .dashPunctuation, .openPunctuation,
    .closePunctuation, .initialPunctuation, .finalPunctuation, .otherPunctuation,
    .mathSymbol, .currencySymbol, .modifierSymbol, .otherSymbol, .spaceSeparator,
    .lineSeparator, .paragraphSeparator, .control, .format, .surrogate, .privateUse,
    .unassigned]

def code : Category → String
  | .uppercaseLetter => "Lu"
  | .lowercaseLetter => "Ll"
  | .titlecaseLetter => "Lt"
  | .modifierLetter => "Lm"
  | .otherLetter => "Lo"
  | .nonspacingMark => "Mn"
  | .spacingMark => "Mc"
  | .enclosingMark => "Me"
  | .decimalNumber => "Nd"
  | .letterNumber => "Nl"
  | .otherNumber => "No"
  | .connectorPunctuation => "Pc"
  | .dashPunctuation => "Pd"
  | .openPunctuation => "Ps"
  | .closePunctuation => "Pe"
  | .initialPunctuation => "Pi"
  | .finalPunctuation => "Pf"
  | .otherPunctuation => "Po"
  | .mathSymbol => "Sm"
  | .currencySymbol => "Sc"
  | .modifierSymbol => "Sk"
  | .otherSymbol => "So"
  | .spaceSeparator => "Zs"
  | .lineSeparator => "Zl"
  | .paragraphSeparator => "Zp"
  | .control => "Cc"
  | .format => "Cf"
  | .surrogate => "Cs"
  | .privateUse => "Co"
  | .unassigned => "Cn"

/-- The category that a letter of the table stands for: the capitals and then the small letters
count the categories in order.
-/
def ofLetter? (letter : Char) : Option Category :=
  if letter.isUpper then all[letter.toNat - 'A'.toNat]?
  else if letter.isLower then all[26 + (letter.toNat - 'a'.toNat)]?
  else none

/-- Reads runs; `count` is the number read so far for the next run, zero when there is none. -/
def decodeRuns (count : Nat) : List Char → List (Nat × Category)
  | [] => []
  | c :: rest =>
      if c.isDigit then
        decodeRuns (10 * count + (c.toNat - '0'.toNat)) rest
      else
        (max count 1, (ofLetter? c).getD .unassigned) :: decodeRuns 0 rest

/-- The runs of categories from the first code point on. -/
def runs : List (Nat × Category) :=
  decodeRuns 0 categoryRuns.toList

/-- The category found in runs at a distance from their start. -/
def find : List (Nat × Category) → Nat → Category
  | [], _ => .unassigned
  | (length, category) :: rest, distance =>
      if distance < length then category else find rest (distance - length)

end Category

def category (c : Char) : Category :=
  Category.find Category.runs c.toNat

def isLetter (c : Char) : Bool :=
  match category c with
  | .uppercaseLetter | .lowercaseLetter | .titlecaseLetter | .modifierLetter | .otherLetter =>
      true
  | _ => false

def isDecimal (c : Char) : Bool :=
  category c == .decimalNumber

/-- The letters in circles and squares, which count as alphabetic although they are symbols. -/
def isEnclosedLetter (c : Char) : Bool :=
  let n := c.toNat
  (0x24B6 ≤ n && n ≤ 0x24E9) || (0x1F130 ≤ n && n ≤ 0x1F149) || (0x1F150 ≤ n && n ≤ 0x1F169)
    || (0x1F170 ≤ n && n ≤ 0x1F189)

/-- The characters of words: letters, marks, decimal digits, connectors and joiners. -/
def isWordChar (c : Char) : Bool :=
  if c.toNat < 0x80 then
    c.isAlphanum || c = '_'
  else
    match category c with
    | .uppercaseLetter | .lowercaseLetter | .titlecaseLetter | .modifierLetter | .otherLetter
    | .nonspacingMark | .spacingMark | .enclosingMark | .decimalNumber | .letterNumber
    | .connectorPunctuation => true
    | _ => isEnclosedLetter c || c.toNat = 0x200C || c.toNat = 0x200D

/-- The characters that show something, and the space. -/
def isPrintable (c : Char) : Bool :=
  if c.toNat < 0x80 then
    0x20 ≤ c.toNat && c.toNat < 0x7F
  else
    match category c with
    | .spaceSeparator | .lineSeparator | .paragraphSeparator | .control | .format | .surrogate
    | .privateUse | .unassigned => false
    | _ => true

/-- The ranges of spacing marks and letters that extend the character before them. -/
def otherExtenders : List (Nat × Nat) :=
  [(0x9BE, 0x9BE), (0x9D7, 0x9D7), (0xB3E, 0xB3E), (0xB57, 0xB57), (0xBBE, 0xBBE),
    (0xBD7, 0xBD7), (0xCC2, 0xCC2), (0xCD5, 0xCD6), (0xD3E, 0xD3E), (0xD57, 0xD57),
    (0xDCF, 0xDCF), (0xDDF, 0xDDF), (0x1B35, 0x1B35), (0x200C, 0x200C), (0x302E, 0x302F),
    (0xFF9E, 0xFF9F), (0x1133E, 0x1133E), (0x11357, 0x11357), (0x114B0, 0x114B0),
    (0x114BD, 0x114BD), (0x115AF, 0x115AF), (0x11930, 0x11930), (0x1D165, 0x1D165),
    (0x1D16E, 0x1D172), (0xE0020, 0xE007F)]

/-- The characters that extend the one before them, such as accents. -/
def isExtender (c : Char) : Bool :=
  0x80 ≤ c.toNat &&
    match category c with
    | .nonspacingMark | .enclosingMark => true
    | _ => otherExtenders.any fun (first, last) => first ≤ c.toNat && c.toNat ≤ last

/-! ## Text in quotes

What does not show by itself, and what would join the character before it, is written by its code
point.
-/

def escapeCode (c : Char) : List Char :=
  ['\\', 'u', '\x7b'] ++ Nat.toDigits 16 c.toNat ++ ['\x7d']

def escapeShown (c : Char) : List Char :=
  if c = '\x00' then ['\\', '0']
  else if c = '\t' then ['\\', 't']
  else if c = '\r' then ['\\', 'r']
  else if c = '\n' then ['\\', 'n']
  else if c = '\\' then ['\\', '\\']
  else if c = '"' then ['\\', '"']
  else if isExtender c || !isPrintable c then escapeCode c
  else [c]

def quoted (text : String) : String :=
  String.ofList ('"' :: text.toList.flatMap escapeShown ++ ['"'])

end TreeLint.Text
