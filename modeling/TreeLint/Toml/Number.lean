import TreeLint.Toml.Text

/-!
Numbers and dates in TOML text.
-/

namespace TreeLint.Toml

/-! ## Numbers -/

/-- The digits behind a first one, with single underscores between digits. -/
def readMoreDigits (isDigit : Char → Bool) : Reader (List Char)
  | '_' :: c :: rest =>
      if isDigit c then
        (readMoreDigits isDigit rest).map fun (digits, rest) => (c :: digits, rest)
      else
        none
  | ['_'] => none
  | c :: rest =>
      if isDigit c then
        (readMoreDigits isDigit rest).map fun (digits, rest) => (c :: digits, rest)
      else
        some ([], c :: rest)
  | [] => some ([], [])

/-- Digits, at least one, with single underscores between them, which are dropped. -/
def readDigits (isDigit : Char → Bool) : Reader (List Char)
  | c :: rest =>
      if isDigit c then
        (readMoreDigits isDigit rest).map fun (digits, rest) => (c :: digits, rest)
      else
        none
  | [] => none

/-- The whole part of a decimal number, which has no leading zero. -/
def readWhole : Reader (List Char)
  | '0' :: rest => some (['0'], rest)
  | text => readDigits Char.isDigit text

/-- A sign that may be at the start of a number: whether it is a minus. -/
def readSign : List Char → Bool × List Char
  | '-' :: rest => (true, rest)
  | '+' :: rest => (false, rest)
  | text => (false, text)

/-- The integer, if it fits into 64 bits with sign. -/
def integer64? (value : Int) : Option Value :=
  if Int64.minValue.toInt ≤ value ∧ value ≤ Int64.maxValue.toInt then some (.integer value)
  else none

/-- An integer in another base, behind the letter that names the base. -/
def readInBase (base : Nat) : Reader Value := fun text => do
  let (digits, rest) ← readDigits (fun c => (Text.digit? base c).isSome) text
  return (← integer64? (← Text.readDigits? base digits), rest)

/-- The least number that is closer to infinity than to any number of 64 bits with a point. -/
def overflowLimit : Nat :=
  Nat.pow 2 1024 - Nat.pow 2 970

/-- The number `mantissa * 10 ^ exponent` counts as infinite. -/
def isOverflow (mantissa : Nat) (exponent : Int) : Bool :=
  let magnitude := (Nat.toDigits 10 mantissa).length + exponent
  if mantissa = 0 ∨ magnitude < 300 then false
  else if 320 < magnitude then true
  else if exponent < 0 then overflowLimit * Nat.pow 10 exponent.natAbs ≤ mantissa
  else overflowLimit ≤ mantissa * Nat.pow 10 exponent.natAbs

/-- A fraction that may follow the whole part: its digits. -/
def readFraction : Reader (List Char)
  | '.' :: rest => readDigits Char.isDigit rest
  | text => some ([], text)

/-- An exponent that may end a number: its sign and digits. -/
def readExponent : Reader (Option (Bool × List Char))
  | c :: rest =>
      if c = 'e' || c = 'E' then do
        let (isNegative, rest) := readSign rest
        let (digits, rest) ← readDigits Char.isDigit rest
        return (some (isNegative, digits), rest)
      else
        some (none, c :: rest)
  | [] => some (none, [])

/-- The written form of a number with a point or an exponent, without underscores. -/
def floatLiteral (isNegative : Bool) (whole fraction : List Char)
    (exponent : Option (Bool × List Char))
    : String :=
  let sign (isNegative : Bool) := if isNegative then ['-'] else []
  let point := if fraction.isEmpty then [] else '.' :: fraction
  let power := exponent.elim [] fun (isNegative, digits) => 'e' :: sign isNegative ++ digits
  String.ofList (sign isNegative ++ whole ++ point ++ power)

/-- The number with a point or an exponent that its parts give. One that is too great is an error,
and one that is too small counts as infinite.
-/
def float? (isNegative : Bool) (whole fraction : List Char)
    (exponent : Option (Bool × List Char))
    : Option Value :=
  let power : Int := exponent.elim 0 fun (isNegative, digits) =>
    let size := Nat.ofDigitChars 10 digits 0
    if isNegative then -size else size
  if isOverflow (Nat.ofDigitChars 10 (whole ++ fraction) 0) (power - fraction.length) then
    if isNegative then some (.float (.infinite true)) else none
  else
    some (.float (.finite (floatLiteral isNegative whole fraction exponent)))

/-- A decimal number, with or without a point or an exponent, behind its sign. -/
def readDecimal (isNegative : Bool) : Reader Value := fun text => do
  let (whole, afterWhole) ← readWhole text
  let (fraction, rest) ← readFraction afterWhole
  let (exponent, rest) ← readExponent rest
  if fraction.isEmpty && exponent.isNone then
    let magnitude := Nat.ofDigitChars 10 whole 0
    return (← integer64? (if isNegative then -magnitude else magnitude), rest)
  else
    return (← float? isNegative whole fraction exponent, rest)

def readNumber : Reader Value
  | '0' :: 'x' :: rest => readInBase 16 rest
  | '0' :: 'o' :: rest => readInBase 8 rest
  | '0' :: 'b' :: rest => readInBase 2 rest
  | text =>
      match readSign text with
      | (isNegative, 'i' :: 'n' :: 'f' :: rest) => some (.float (.infinite isNegative), rest)
      | (_, 'n' :: 'a' :: 'n' :: rest) => some (.float .nan, rest)
      | (isNegative, rest) => readDecimal isNegative rest

/-! ## Dates and times -/

/-- A number of exactly so many digits, within bounds. -/
def readFixed (count least most : Nat) : Reader Nat := fun text => do
  let digits := text.take count
  let value := Nat.ofDigitChars 10 digits 0
  if digits.length = count ∧ digits.all Char.isDigit ∧ least ≤ value ∧ value ≤ most then
    return (value, text.drop count)
  else
    none

def expect (c : Char) : List Char → Option (List Char)
  | head :: rest => if head = c then some rest else none
  | [] => none

/-- A number with zeros in front up to a width. -/
def padded (width value : Nat) : List Char :=
  let digits := Nat.toDigits 10 value
  List.replicate (width - digits.length) '0' ++ digits

def daysOfMonth (year month : Nat) : Nat :=
  if month = 2 then
    if year % 4 = 0 ∧ (year % 100 ≠ 0 ∨ year % 400 = 0) then 29 else 28
  else if month = 4 ∨ month = 6 ∨ month = 9 ∨ month = 11 then 30
  else 31

def readDate : Reader (List Char) := fun text => do
  let (year, rest) ← readFixed 4 0 9999 text
  let (month, rest) ← readFixed 2 1 12 (← expect '-' rest)
  let (day, rest) ← readFixed 2 1 (daysOfMonth year month) (← expect '-' rest)
  return (padded 4 year ++ '-' :: padded 2 month ++ '-' :: padded 2 day, rest)

/-- The fraction of a second, cut to nanoseconds and written without zeros at its end. -/
def readSecondFraction : Reader (List Char)
  | '.' :: rest =>
      let (digits, rest) := rest.span Char.isDigit
      let kept := ((digits.take 9).reverse.dropWhile (· == '0')).reverse
      if digits.isEmpty then none
      else some (if kept.isEmpty then [] else '.' :: kept, rest)
  | text => some ([], text)

def readTime : Reader (List Char) := fun text => do
  let (hour, rest) ← readFixed 2 0 23 text
  let (minute, rest) ← readFixed 2 0 59 (← expect ':' rest)
  let (second, rest) ← readFixed 2 0 60 (← expect ':' rest)
  let (fraction, rest) ← readSecondFraction rest
  return (padded 2 hour ++ ':' :: padded 2 minute ++ ':' :: padded 2 second ++ fraction, rest)

/-- The distance from universal time that may follow a time. -/
def readZone : Reader (List Char)
  | 'Z' :: rest | 'z' :: rest => some (['Z'], rest)
  | sign :: rest =>
      if sign = '+' || sign = '-' then do
        let (hour, rest) ← readFixed 2 0 23 rest
        let (minute, rest) ← readFixed 2 0 59 (← expect ':' rest)
        let sign := if hour = 0 ∧ minute = 0 then '+' else sign
        return (sign :: padded 2 hour ++ ':' :: padded 2 minute, rest)
      else
        some ([], sign :: rest)
  | [] => some ([], [])

/-- The time that may follow a date, with a letter or a space between them. -/
def readTimeOfDate : Reader (List Char)
  | c :: rest =>
      if (c = 'T' || c = 't' || c = ' ') && (readFixed 2 0 23 rest).isSome
          && (rest.drop 2).head? == some ':' then do
        let (time, rest) ← readTime rest
        let (zone, rest) ← readZone rest
        return ('T' :: time ++ zone, rest)
      else
        some ([], c :: rest)
  | [] => some ([], [])

/-- The text starts like a date: with four digits and a dash. -/
def startsDate (text : List Char) : Bool :=
  (readFixed 4 0 9999 text).isSome && (text.drop 4).head? == some '-'

/-- The text starts like a time: with an hour and a colon. -/
def startsTime (text : List Char) : Bool :=
  (readFixed 2 0 23 text).isSome && (text.drop 2).head? == some ':'

/-- A date with or without a time, or a time. -/
def readMoment : Reader Value := fun text => do
  if startsDate text then
    let (date, rest) ← readDate text
    let (time, rest) ← readTimeOfDate rest
    return (.datetime (String.ofList (date ++ time)), rest)
  else
    let (time, rest) ← readTime text
    return (.datetime (String.ofList time), rest)

end TreeLint.Toml
