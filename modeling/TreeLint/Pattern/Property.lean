import TreeLint.Pattern.CharSet

/-!
Sets of characters that patterns call by name: general categories, and classes of plain
characters.
-/

namespace TreeLint

namespace Text.Category

/-- The full name of the category, written together in small letters. -/
def longName : Category → String
  | .uppercaseLetter => "uppercaseletter"
  | .lowercaseLetter => "lowercaseletter"
  | .titlecaseLetter => "titlecaseletter"
  | .modifierLetter => "modifierletter"
  | .otherLetter => "otherletter"
  | .nonspacingMark => "nonspacingmark"
  | .spacingMark => "spacingmark"
  | .enclosingMark => "enclosingmark"
  | .decimalNumber => "decimalnumber"
  | .letterNumber => "letternumber"
  | .otherNumber => "othernumber"
  | .connectorPunctuation => "connectorpunctuation"
  | .dashPunctuation => "dashpunctuation"
  | .openPunctuation => "openpunctuation"
  | .closePunctuation => "closepunctuation"
  | .initialPunctuation => "initialpunctuation"
  | .finalPunctuation => "finalpunctuation"
  | .otherPunctuation => "otherpunctuation"
  | .mathSymbol => "mathsymbol"
  | .currencySymbol => "currencysymbol"
  | .modifierSymbol => "modifiersymbol"
  | .otherSymbol => "othersymbol"
  | .spaceSeparator => "spaceseparator"
  | .lineSeparator => "lineseparator"
  | .paragraphSeparator => "paragraphseparator"
  | .control => "control"
  | .format => "format"
  | .surrogate => "surrogate"
  | .privateUse => "privateuse"
  | .unassigned => "unassigned"

end Text.Category

namespace CharSet

/-- The name without the room and the marks between its words, in small letters, and without `is`
in front.
-/
def plainName (name : List Char) : String :=
  let name :=
    match name with
    | i :: s :: rest => if i.toLower = 'i' ∧ s.toLower = 's' then rest else name
    | _ => name
  String.ofList
    ((name.filter fun c => c != ' ' && c != '_' && c != '-' && c.toNat < 0x80).map Char.toLower)

/-- The categories whose code starts with a letter. -/
def categoriesOf (initial : Char) : List Text.Category :=
  Text.Category.all.filter (·.code.toList.head? == some initial)

def groupInitial? : String → Option Char
  | "l" | "letter" => some 'L'
  | "m" | "mark" | "combiningmark" => some 'M'
  | "n" | "number" => some 'N'
  | "p" | "punctuation" | "punct" => some 'P'
  | "s" | "symbol" => some 'S'
  | "z" | "separator" => some 'Z'
  | "c" | "other" => some 'C'
  | _ => none

/-- The set of characters of the category, or of the group of categories, with the plain name. -/
def ofCategoryName? (name : String) : Option CharSet :=
  match name with
  | "any" => some all
  | "ascii" => some ascii
  | "assigned" => some (.complement (.inCategory .unassigned))
  | "lc" | "casedletter" =>
      some (ofCategories [.uppercaseLetter, .lowercaseLetter, .titlecaseLetter])
  | "digit" => some .decimal
  | "cntrl" => some (.inCategory .control)
  | _ =>
      match groupInitial? name with
      | some initial => some (ofCategories (categoriesOf initial))
      | none =>
          (Text.Category.all.find? fun category =>
            category.longName == name
              || String.ofList (category.code.toList.map Char.toLower) == name).map .inCategory

/-- The set that a property name stands for, with or without the property that it is a value of.
-/
def ofPropertyName? (name : List Char) : Option CharSet :=
  match name.span fun c => c != '=' && c != ':' with
  | (property, _ :: value) =>
      let isNegated := property.getLast? == some '!'
      let property := plainName (if isNegated then property.dropLast else property)
      if property == "gc" || property == "generalcategory" then
        (ofCategoryName? (plainName value)).map fun set =>
          if isNegated then .complement set else set
      else
        none
  | (_, []) =>
      match plainName name with
      | "whitespace" | "wspace" | "space" => some .blank
      | plain => ofCategoryName? plain

def asciiDigit : CharSet :=
  .range '0' '9'

def asciiLetter : CharSet :=
  ofRanges [('a', 'z'), ('A', 'Z')]

def asciiWord : CharSet :=
  .union asciiLetter (.union asciiDigit (.single '_'))

def asciiSpace : CharSet :=
  ofRanges [('\t', '\r'), (' ', ' ')]

/-- The class of plain characters that has the name in brackets and colons. -/
def ofClassName? : String → Option CharSet
  | "alnum" => some (.union asciiLetter asciiDigit)
  | "alpha" => some asciiLetter
  | "ascii" => some ascii
  | "blank" => some (ofRanges [('\t', '\t'), (' ', ' ')])
  | "cntrl" => some (ofRanges [('\x00', '\x1f'), ('\x7f', '\x7f')])
  | "digit" => some asciiDigit
  | "graph" => some (.range '!' '~')
  | "lower" => some (.range 'a' 'z')
  | "print" => some (.range ' ' '~')
  | "punct" => some (ofRanges [('!', '/'), (':', '@'), ('[', '\x60'), ('\x7b', '~')])
  | "space" => some asciiSpace
  | "upper" => some (.range 'A' 'Z')
  | "word" => some asciiWord
  | "xdigit" => some (.union asciiDigit (ofRanges [('a', 'f'), ('A', 'F')]))
  | _ => none

end CharSet

end TreeLint
