import Mathlib.Data.List.TakeDrop
import TreeLint.Json.Printer
import TreeLint.Json.Reader

/-! Printed JSON values are read back. Main result: reading what is printed of a value gives the
value, however the parts are spaced, if no number in it has a fraction or an exponent. Such numbers
hold any text, so those that hold none of the grammar are not read.
-/

namespace TreeLint.Json

-----------------------------------------------------------------------------------------
-- Strings
-----------------------------------------------------------------------------------------

/-- Control characters are escaped by their numbers. -/
theorem hexValue4?_control
    : ∀ n < 0x20, hexValue4? '0' '0' (Nat.digitChar (n / 16)) (Nat.digitChar (n % 16)) = some n := by
  decide

/-- The number of a control character is no half of a pair. -/
theorem joinUnits_control {unit : Nat} (control : unit < 0x20) (units : List (Char ⊕ Nat))
    : joinUnits (.inr unit :: units) = (joinUnits units).map (Char.ofNat unit :: ·) := by
  have low : ¬0xD800 ≤ unit := by omega
  have high : ¬0xDC00 ≤ unit := by omega
  match units with
  | [] => simp [joinUnits, low]
  | .inl _ :: _ => simp [joinUnits, low]
  | .inr _ :: _ => simp [joinUnits, low, high]

/-- Any character is written so that one unit is read, which denotes it. -/
theorem readUnits_escape (c : Char)
    : ∃ unit,
        (∀ units, joinUnits (unit :: units) = (joinUnits units).map (c :: ·))
        ∧ ∀ text,
            readUnits (escape c ++ text)
              = (readUnits text).bind fun (units, rest) => some (unit :: units, rest) := by
  have plain (units : List (Char ⊕ Nat))
      : joinUnits (.inl c :: units) = (joinUnits units).map (c :: ·) := by rw [joinUnits]
  by_cases short : c ∈ ['"', '\\', '\x08', '\x0c', '\n', '\r', '\t']
  · refine ⟨.inl c, plain, fun text => ?_⟩
    simp only [List.mem_cons, List.not_mem_nil, or_false] at short
    rcases short with rfl | rfl | rfl | rfl | rfl | rfl | rfl <;>
      simp [escape, readUnits, unescape?]
  · simp only [List.mem_cons, List.not_mem_nil, or_false, not_or] at short
    obtain ⟨quote, backslash, backspace, feed, newline, returns, tab⟩ := short
    rw [escape, if_neg quote, if_neg backslash, if_neg backspace, if_neg feed, if_neg newline,
      if_neg returns, if_neg tab]
    by_cases control : c.toNat < 0x20
    · refine ⟨.inr c.toNat, fun units => ?_, fun text => ?_⟩
      · rw [joinUnits_control control, Char.ofNat_toNat]
      · rw [if_pos control]
        simp [readUnits, hexValue4?_control c.toNat control]
    · refine ⟨.inl c, plain, fun text => ?_⟩
      rw [if_neg control, List.singleton_append, readUnits.eq_def]
      split
      · next same => exact absurd (List.cons.inj same).1 quote
      · next same => exact absurd (List.cons.inj same).1 backslash
      · next same => exact absurd (List.cons.inj same).1 backslash
      · next same =>
          obtain ⟨rfl, rfl⟩ := List.cons.inj same
          rw [if_neg (by simp [Nat.le_of_not_lt control, backslash])]
          rfl
      · next same => cases same

/-- Characters that are written one after the other are read back, by induction on them. -/
theorem readUnits_escapes (chars rest : List Char)
    : ∃ units,
        joinUnits units = some chars
        ∧ readUnits (chars.flatMap escape ++ '"' :: rest) = some (units, rest) := by
  induction chars with
  | nil => exact ⟨[], by rw [joinUnits], by simp [readUnits]⟩
  | cons c chars ih =>
      obtain ⟨unit, denotes, isRead⟩ := readUnits_escape c
      obtain ⟨units, joined, others⟩ := ih
      refine ⟨unit :: units, by rw [denotes, joined, Option.map_some], ?_⟩
      rw [List.flatMap_cons, List.append_assoc, isRead, others, Option.bind_some]

/-- Every text is written as a quote and something that is read back behind it, and so is the key
that denotes none.
-/
theorem readString_quoteKey (key : Option String)
    : ∃ body, quoteKey key = '"' :: body ∧ ∀ rest, readString (body ++ rest) = some (key, rest) := by
  cases key with
  | none =>
      have value : hexValue4? 'd' '8' '0' '0' = some 0xD800 := by decide
      refine ⟨['\\', 'u', 'd', '8', '0', '0', '"'], rfl, fun rest => ?_⟩
      simp [readString, readUnits, value, joinUnits]
  | some text =>
      refine ⟨text.toList.flatMap escape ++ ['"'], rfl, fun rest => ?_⟩
      obtain ⟨units, joined, isRead⟩ := readUnits_escapes text.toList rest
      rw [List.append_assoc, List.singleton_append, readString, isRead]
      simp [joined, String.ofList_toList]

-----------------------------------------------------------------------------------------
-- Numbers
-----------------------------------------------------------------------------------------

/-- What follows does not go on with a number. -/
def EndsNumber (rest : List Char) : Prop :=
  ∀ c ∈ rest.head?, c.isDigit = false ∧ c ≠ '.' ∧ c ≠ 'e' ∧ c ≠ 'E'

theorem readDigits_toDigits (n : Nat) {rest : List Char} (ends : EndsNumber rest)
    : readDigits (Nat.toDigits 10 n ++ rest) = some (Nat.toDigits 10 n, rest) := by
  have digits : ∀ c ∈ Nat.toDigits 10 n, c.isDigit := fun c member =>
    Nat.isDigit_of_mem_toDigits (by omega) (by omega) member
  have stops : rest.takeWhile Char.isDigit = [] ∧ rest.dropWhile Char.isDigit = rest := by
    cases rest with
    | nil => exact ⟨rfl, rfl⟩
    | cons c rest =>
        have noDigit := (ends c rfl).1
        exact ⟨by simp [noDigit], by simp [noDigit]⟩
  rw [readDigits, List.span_eq_takeWhile_dropWhile, List.takeWhile_append_of_pos digits,
    List.dropWhile_append_of_pos digits, stops.1, stops.2, List.append_nil]
  cases written : Nat.toDigits 10 n with
  | nil => exact absurd written (Nat.toDigits_ne_nil)
  | cons c digits => rfl

/-- A number above zero is written without a zero in front, by induction on the number. -/
theorem head?_toDigits {n : Nat} (positive : 0 < n) : (Nat.toDigits 10 n).head? ≠ some '0' := by
  have digit : ∀ n < 10, 0 < n → Nat.digitChar n ≠ '0' := by decide
  induction n using Nat.strongRecOn with
  | ind n ih =>
      by_cases small : n < 10
      · rw [Nat.toDigits_of_lt_base small, List.head?_cons]
        exact fun same => digit n small positive (Option.some.inj same)
      · rw [Nat.toDigits_of_base_le (by omega) (by omega), List.head?_append]
        have first := ih (n / 10) (by omega) (by omega)
        cases written : Nat.toDigits 10 (n / 10) with
        | nil => exact absurd written Nat.toDigits_ne_nil
        | cons c digits => rwa [written] at first

theorem readWhole_toDigits (n : Nat) {rest : List Char} (ends : EndsNumber rest)
    : readWhole (Nat.toDigits 10 n ++ rest) = some (Nat.toDigits 10 n, rest) := by
  have digits := readDigits_toDigits n ends
  rcases Nat.eq_zero_or_pos n with rfl | positive
  · rfl
  · have first := head?_toDigits positive
    rw [readWhole.eq_def]
    split
    · next same =>
        cases written : Nat.toDigits 10 n with
        | nil => exact absurd written Nat.toDigits_ne_nil
        | cons c digits =>
            rw [written] at same first
            exact absurd (congrArg some (List.cons.inj same).1) first
    · exact digits

theorem readFraction_of_ends {rest : List Char} (ends : EndsNumber rest)
    : readFraction rest = some ([], rest) := by
  cases rest with
  | nil => rfl
  | cons c rest =>
      rw [readFraction.eq_def]
      split
      · next same => exact absurd (List.cons.inj same).1 (ends c rfl).2.1
      · rfl

theorem readExponent_of_ends {rest : List Char} (ends : EndsNumber rest)
    : readExponent rest = some ([], rest) := by
  cases rest with
  | nil => rfl
  | cons c rest =>
      obtain ⟨_, _, small, capital⟩ := ends c rfl
      rw [readExponent.eq_def]
      exact if_neg (by simp [small, capital])

/-- What is written of a number without sign starts with a digit. -/
theorem toDigits_head (n : Nat)
    : ∃ c digits, Nat.toDigits 10 n = c :: digits ∧ c.isDigit := by
  cases written : Nat.toDigits 10 n with
  | nil => exact absurd written Nat.toDigits_ne_nil
  | cons c digits =>
      have member : c ∈ Nat.toDigits 10 n := written ▸ List.mem_cons_self
      exact ⟨c, digits, rfl, Nat.isDigit_of_mem_toDigits (by omega) (by omega) member⟩

/-- What is written of an integer starts with a digit or with a minus. -/
theorem printInteger_head (value : Int)
    : ∃ c digits, printInteger value = c :: digits ∧ (c.isDigit ∨ c = '-') := by
  cases value with
  | ofNat n =>
      obtain ⟨c, digits, written, isDigit⟩ := toDigits_head n
      exact ⟨c, digits, written, Or.inl isDigit⟩
  | negSucc n => exact ⟨'-', _, rfl, Or.inr rfl⟩

/-- An integer is read back. -/
theorem readNumber_printInteger (value : Int) {rest : List Char} (ends : EndsNumber rest)
    : readNumber (printInteger value ++ rest) = some (.integer value, rest) := by
  cases value with
  | ofNat n =>
      have whole := readWhole_toDigits n ends
      have unsigned : ∀ tail, Nat.toDigits 10 n ++ rest ≠ '-' :: tail := by
        intro tail same
        obtain ⟨c, digits, written, isDigit⟩ := toDigits_head n
        rw [written] at same
        rw [(List.cons.inj same).1] at isDigit
        cases isDigit
      rw [readNumber.eq_def, printInteger]
      split
      next negative text sign =>
        split at sign
        · next same => exact absurd same (unsigned _)
        · cases sign
          simp [whole, readFraction_of_ends ends, readExponent_of_ends ends,
            Nat.ofDigitChars_ten_toDigits]
  | negSucc n =>
      have whole := readWhole_toDigits (n + 1) ends
      simpa [readNumber, printInteger, whole, readFraction_of_ends ends, readExponent_of_ends ends,
        Nat.ofDigitChars_ten_toDigits] using (Int.negSucc_eq n).symm

-----------------------------------------------------------------------------------------
-- Blanks
-----------------------------------------------------------------------------------------

/-- There is nothing but blanks between the parts of a value, and a colon behind each key. -/
structure Layout.Spaced (layout : Layout) : Prop where
  gap : ∀ depth, ∀ c ∈ layout.gap depth, isBlank c
  colon : ∃ room : List Char, layout.colon = ':' :: room ∧ ∀ c ∈ room, isBlank c

theorem Layout.indented_spaced : Layout.indented.Spaced where
  gap depth c member := by
    rcases List.mem_cons.mp member with rfl | inside
    · rfl
    · rw [List.eq_of_mem_replicate inside]
      rfl
  colon := ⟨[' '], rfl, fun c member => List.mem_singleton.mp member ▸ rfl⟩

theorem mem_of_isBlank {c : Char} (blank : isBlank c) : c ∈ [' ', '\n', '\t', '\r'] := by
  simpa [isBlank, or_assoc] using blank

/-- The characters that tell the other values from numbers, and those between values. -/
def marks : List Char :=
  ['"', '[', '\x7b', 'n', 't', 'f', ']', ' ', '\n', '\t', '\r']

theorem not_mem_marks {c : Char} (first : c.isDigit ∨ c = '-') : c ∉ marks := by
  have foreign : ∀ mark ∈ marks, mark.isDigit = false ∧ mark ≠ '-' := by simp [marks]
  intro member
  obtain ⟨noDigit, noMinus⟩ := foreign c member
  rcases first with isDigit | isMinus
  · exact absurd (noDigit.symm.trans isDigit) (by simp)
  · exact noMinus isMinus

theorem isBlank_of_number {c : Char} (first : c.isDigit ∨ c = '-') : isBlank c = false :=
  Bool.eq_false_iff.mpr fun blank =>
    not_mem_marks first (List.mem_append_right ['"', '[', '\x7b', 'n', 't', 'f', ']']
      (mem_of_isBlank blank))

theorem skipBlanks_append {room : List Char} (blank : ∀ c ∈ room, isBlank c) (text : List Char)
    : skipBlanks (room ++ text) = skipBlanks text :=
  List.dropWhile_append_of_pos blank

theorem skipBlanks_cons {c : Char} (solid : isBlank c = false) (text : List Char)
    : skipBlanks (c :: text) = c :: text :=
  List.dropWhile_cons_of_neg (by simp [solid])

/-- Blanks in front of a value do not matter. -/
theorem readValue_skip (fuel : Nat) {room : List Char} (blank : ∀ c ∈ room, isBlank c)
    (text : List Char)
    : readValue fuel (room ++ text) = readValue fuel text := by
  cases fuel with
  | zero => rfl
  | succ fuel => rw [readValue, readValue, skipBlanks_append blank]

/-- No number goes on behind a gap that is followed by a comma or a closing bracket. -/
theorem endsNumber_gap {room : List Char} (blank : ∀ c ∈ room, isBlank c) {c : Char}
    (closes : c ∈ [',', ']', '\x7d']) (rest : List Char)
    : EndsNumber (room ++ c :: rest) := by
  have foreign : ∀ other ∈ [' ', '\n', '\t', '\r'] ++ [',', ']', '\x7d'],
      other.isDigit = false ∧ other ≠ '.' ∧ other ≠ 'e' ∧ other ≠ 'E' := by simp
  cases room with
  | nil =>
      intro other same
      cases same
      exact foreign c (List.mem_append_right _ closes)
  | cons first room =>
      intro other same
      cases same
      exact foreign first (List.mem_append_left _ (mem_of_isBlank (blank first List.mem_cons_self)))

-----------------------------------------------------------------------------------------
-- Values
-----------------------------------------------------------------------------------------

mutual
/-- No number in the value has a fraction or an exponent. -/
def Exact : Json → Prop
  | .decimal _ => False
  | .array items => AllExact items
  | .object members => MembersExact members
  | _ => True

def AllExact : List Json → Prop
  | [] => True
  | item :: rest => item.Exact ∧ AllExact rest

/-- No number in the values of the members has a fraction or an exponent. -/
def MembersExact : List (Option String × Json) → Prop
  | [] => True
  | (_, value) :: rest => value.Exact ∧ MembersExact rest
end

/-- The first character of a value is no blank, and closes no array. -/
theorem print_head (layout : Layout) (depth : Nat) {value : Json} (isExact : value.Exact)
    : ∃ c tail,
        value.print layout depth = c :: tail ∧ isBlank c = false ∧ c ≠ ']' := by
  match value with
  | .null => exact ⟨'n', _, rfl, rfl, by decide⟩
  | .bool true => exact ⟨'t', _, rfl, rfl, by decide⟩
  | .bool false => exact ⟨'f', _, rfl, rfl, by decide⟩
  | .integer value =>
      obtain ⟨c, digits, written, first⟩ := printInteger_head value
      refine ⟨c, digits, by rw [print, written], isBlank_of_number first, ?_⟩
      rintro rfl
      exact not_mem_marks first (by decide)
  | .string text =>
      obtain ⟨tail, same, _⟩ := readString_quoteKey (some text)
      exact ⟨'"', tail, by rw [print]; exact same, rfl, by decide⟩
  | .unpaired => exact ⟨'"', _, rfl, rfl, by decide⟩
  | .array [] => exact ⟨'[', _, rfl, rfl, by decide⟩
  | .array (_ :: _) => exact ⟨'[', _, rfl, rfl, by decide⟩
  | .object [] => exact ⟨'\x7b', _, rfl, rfl, by decide⟩
  | .object (_ :: _) => exact ⟨'\x7b', _, rfl, rfl, by decide⟩

/-- A text in quotes is read back as a value. -/
theorem readValue_quoteKey (key : Option String) (fuel : Nat) (rest : List Char)
    : readValue (fuel + 1) (quoteKey key ++ rest) = some (key.elim .unpaired .string, rest) := by
  obtain ⟨body, same, isRead⟩ := readString_quoteKey key
  rw [same, readValue, List.cons_append, skipBlanks_cons rfl]
  change (readString (body ++ rest)).bind
    (fun read : Option String × List Char => some (read.1.elim unpaired string, read.2)) = some _
  rw [isRead]
  rfl

theorem readValue_printInteger (value : Int) (fuel : Nat) {rest : List Char}
    (ends : EndsNumber rest)
    : readValue (fuel + 1) (printInteger value ++ rest) = some (.integer value, rest) := by
  obtain ⟨c, digits, written, first⟩ := printInteger_head value
  have isRead := readNumber_printInteger value ends
  have unmarked := not_mem_marks first
  rw [written] at isRead
  rw [written, readValue, List.cons_append, skipBlanks_cons (isBlank_of_number first)]
  -- The reader looks for the marks of the other values before it reads a number.
  split
  case h_7 => exact isRead
  all_goals
    next same =>
      rw [(List.cons.inj same).1] at unmarked
      exact absurd (by decide) unmarked

-----------------------------------------------------------------------------------------
-- Arrays and objects
-----------------------------------------------------------------------------------------

section Steps

variable {fuel : Nat} {text tail more rest : List Char}

theorem readItems_last {item : Json} (first : readValue fuel text = some (item, tail))
    (closes : skipBlanks tail = ']' :: rest)
    : readItems (fuel + 1) text = some ([item], rest) := by
  rw [readItems, first]
  simp [closes]

theorem readItems_more {item : Json} {items : List Json}
    (first : readValue fuel text = some (item, tail)) (goesOn : skipBlanks tail = ',' :: more)
    (others : readItems fuel more = some (items, rest))
    : readItems (fuel + 1) text = some (item :: items, rest) := by
  rw [readItems, first]
  simp [goesOn, others]

theorem readMembers_last {key : Option String} {value : Json}
    {body behindKey behindColon : List Char}
    (opens : skipBlanks text = '"' :: body) (isKey : readString body = some (key, behindKey))
    (colon : skipBlanks behindKey = ':' :: behindColon)
    (first : readValue fuel behindColon = some (value, tail))
    (closes : skipBlanks tail = '\x7d' :: rest)
    : readMembers (fuel + 1) text = some ([(key, value)], rest) := by
  rw [readMembers, opens]
  simp [isKey, colon, first, closes]

theorem readMembers_more {key : Option String} {value : Json}
    {body behindKey behindColon : List Char}
    {members : List (Option String × Json)} (opens : skipBlanks text = '"' :: body)
    (isKey : readString body = some (key, behindKey))
    (colon : skipBlanks behindKey = ':' :: behindColon)
    (first : readValue fuel behindColon = some (value, tail))
    (goesOn : skipBlanks tail = ',' :: more)
    (others : readMembers fuel more = some (members, rest))
    : readMembers (fuel + 1) text = some ((key, value) :: members, rest) := by
  rw [readMembers, opens]
  simp [isKey, colon, first, goesOn, others]

theorem readValue_array {c : Char} {items : List Json} (opens : skipBlanks more = c :: tail)
    (apart : c ≠ ']') (inside : readItems fuel (c :: tail) = some (items, rest))
    : readValue (fuel + 1) ('[' :: more) = some (.array items, rest) := by
  rw [readValue, skipBlanks_cons rfl]
  simp [opens, apart, inside]

theorem readValue_object {members : List (Option String × Json)}
    (opens : skipBlanks more = '"' :: tail)
    (inside : readMembers fuel ('"' :: tail) = some (members, rest))
    : readValue (fuel + 1) ('\x7b' :: more) = some (.object members, rest) := by
  rw [readValue, skipBlanks_cons rfl]
  simp [opens, inside]

end Steps

section Containers

variable {layout : Layout}

/-- No number goes on behind an item. -/
theorem endsNumber_items (spaced : layout.Spaced) (depth : Nat) (items : List Json)
    (rest : List Char)
    : EndsNumber (printItems layout depth items ++ rest) := by
  cases items with
  | nil =>
      rw [printItems, List.append_assoc]
      exact endsNumber_gap (spaced.gap depth) (by decide) rest
  | cons item items =>
      have nothing : ∀ c ∈ ([] : List Char), isBlank c := fun _ member => nomatch member
      rw [printItems]
      exact endsNumber_gap nothing (by decide) _

theorem endsNumber_members (spaced : layout.Spaced) (depth : Nat)
    (members : List (Option String × Json)) (rest : List Char)
    : EndsNumber (printMembers layout depth members ++ rest) := by
  cases members with
  | nil =>
      rw [printMembers, List.append_assoc]
      exact endsNumber_gap (spaced.gap depth) (by decide) rest
  | cons member members =>
      have nothing : ∀ c ∈ ([] : List Char), isBlank c := fun _ member => nomatch member
      rw [printMembers]
      exact endsNumber_gap nothing (by decide) _

mutual
/-- A value is read back if the fuel is twice its length, and so are the items and the members of
containers, by induction on the fuel.
-/
theorem readValue_print (spaced : layout.Spaced) (depth : Nat) (value : Json)
    (isExact : value.Exact) {fuel : Nat}
    (enough : 2 * (value.print layout depth).length ≤ fuel) {rest : List Char}
    (ends : EndsNumber rest)
    : readValue fuel (value.print layout depth ++ rest) = some (value, rest) := by
  obtain ⟨c, tail, written, _⟩ := print_head layout depth isExact
  cases fuel with
  | zero =>
      rw [written] at enough
      exact absurd enough (by simp)
  | succ fuel =>
      clear written
      cases value with
      | null => rfl
      | bool value => cases value <;> rfl
      | integer value =>
          rw [print]
          exact readValue_printInteger value fuel ends
      | decimal literal => exact isExact.elim
      | string text =>
          rw [print]
          exact readValue_quoteKey (some text) fuel rest
      | unpaired => exact readValue_quoteKey none fuel rest
      | array items =>
          cases items with
          | nil => rfl
          | cons item items =>
              obtain ⟨c, tail, written, solid, apart⟩ := print_head layout (depth + 1) isExact.1
              simp only [print, List.length_cons, List.length_append] at enough
              have inside := readItems_print spaced depth item items isExact.1 isExact.2 []
                (fun _ member => nomatch member) (Nat.lt_of_succ_le (by omega : _ + 1 ≤ fuel)) rest
              simp only [print, List.cons_append, List.append_assoc]
              rw [written] at inside ⊢
              refine readValue_array ?_ apart inside
              rw [skipBlanks_append (spaced.gap (depth + 1))]
              exact skipBlanks_cons solid _
      | object members =>
          cases members with
          | nil => rfl
          | cons member members =>
              obtain ⟨key, value⟩ := member
              obtain ⟨body, written, _⟩ := readString_quoteKey key
              simp only [print, List.length_cons, List.length_append] at enough
              have inside := readMembers_print spaced depth key value members isExact.1 isExact.2 []
                (fun _ member => nomatch member) (Nat.lt_of_succ_le (by omega : _ + 1 ≤ fuel)) rest
              simp only [print, List.cons_append, List.append_assoc]
              rw [written] at inside ⊢
              refine readValue_object ?_ inside
              rw [skipBlanks_append (spaced.gap (depth + 1))]
              exact skipBlanks_cons rfl _
  termination_by fuel

theorem readItems_print (spaced : layout.Spaced) (depth : Nat) (item : Json) (items : List Json)
    (isExact : item.Exact) (others : AllExact items) (room : List Char)
    (blank : ∀ c ∈ room, isBlank c) {fuel : Nat}
    (enough
      : 2 * ((item.print layout (depth + 1)).length + (printItems layout depth items).length)
        < fuel)
    (rest : List Char)
    : readItems fuel
          (room ++ (item.print layout (depth + 1) ++ (printItems layout depth items ++ rest)))
      = some (item :: items, rest) := by
  cases fuel with
  | zero => exact absurd enough (Nat.not_lt_zero _)
  | succ fuel =>
      have half : 2 * (item.print layout (depth + 1)).length ≤ fuel := by omega
      have first := readValue_print spaced (depth + 1) item isExact half
        (endsNumber_items spaced depth items rest)
      rw [← readValue_skip fuel blank] at first
      cases items with
      | nil =>
          refine readItems_last first ?_
          rw [printItems, List.append_assoc, skipBlanks_append (spaced.gap depth)]
          exact skipBlanks_cons rfl rest
      | cons next items =>
          simp only [printItems, List.length_cons, List.length_append] at enough
          have goesOn : skipBlanks (printItems layout depth (next :: items) ++ rest)
              = ',' :: (layout.gap (depth + 1)
                ++ (next.print layout (depth + 1) ++ (printItems layout depth items ++ rest))) := by
            simp only [printItems, List.cons_append, List.append_assoc]
            exact skipBlanks_cons rfl _
          exact readItems_more first goesOn (readItems_print spaced depth next items others.1
            others.2 _ (spaced.gap (depth + 1)) (by omega) rest)
  termination_by fuel

theorem readMembers_print (spaced : layout.Spaced) (depth : Nat) (key : Option String)
    (value : Json) (members : List (Option String × Json)) (isExact : value.Exact)
    (others : MembersExact members) (room : List Char) (blank : ∀ c ∈ room, isBlank c)
    {fuel : Nat}
    (enough
      : 2 * ((quoteKey key).length + layout.colon.length
          + (value.print layout (depth + 1)).length + (printMembers layout depth members).length)
        < fuel)
    (rest : List Char)
    : readMembers fuel
          (room ++ (quoteKey key ++ (layout.colon ++ (value.print layout (depth + 1)
            ++ (printMembers layout depth members ++ rest)))))
      = some ((key, value) :: members, rest) := by
  cases fuel with
  | zero => exact absurd enough (Nat.not_lt_zero _)
  | succ fuel =>
      have half : 2 * (value.print layout (depth + 1)).length ≤ fuel := by omega
      have first := readValue_print spaced (depth + 1) value isExact half
        (endsNumber_members spaced depth members rest)
      obtain ⟨body, written, isRead⟩ := readString_quoteKey key
      obtain ⟨gap, colon, isGap⟩ := spaced.colon
      have opens (text : List Char)
          : skipBlanks (room ++ (quoteKey key ++ text)) = '"' :: (body ++ text) := by
        rw [skipBlanks_append blank, written]
        exact skipBlanks_cons rfl _
      rw [← readValue_skip fuel isGap] at first
      have behind (text : List Char)
          : skipBlanks (layout.colon ++ text) = ':' :: (gap ++ text) := by
        rw [colon]
        exact skipBlanks_cons rfl _
      cases members with
      | nil =>
          refine readMembers_last (opens _) (isRead _) (behind _) first ?_
          rw [printMembers, List.append_assoc, skipBlanks_append (spaced.gap depth)]
          exact skipBlanks_cons rfl rest
      | cons next members =>
          obtain ⟨nextKey, nextValue⟩ := next
          simp only [printMembers, List.length_cons, List.length_append] at enough
          have goesOn
              : skipBlanks (printMembers layout depth ((nextKey, nextValue) :: members) ++ rest)
                = ',' :: (layout.gap (depth + 1)
                ++ (quoteKey nextKey ++ (layout.colon ++ (nextValue.print layout (depth + 1)
                  ++ (printMembers layout depth members ++ rest))))) := by
            simp only [printMembers, List.cons_append, List.append_assoc]
            exact skipBlanks_cons rfl _
          exact readMembers_more (opens _) (isRead _) (behind _) first goesOn
            (readMembers_print spaced depth nextKey nextValue members others.1 others.2 _
              (spaced.gap (depth + 1)) (by omega) rest)
  termination_by fuel
end

end Containers

/-- What is printed of a value is read back, as long as its numbers are integers. -/
theorem read?_print {layout : Layout} (spaced : layout.Spaced) {value : Json}
    (isExact : value.Exact)
    : read? (String.ofList (value.print layout 0)) = some value := by
  have nothing : EndsNumber [] := fun _ member => nomatch member
  have isRead := readValue_print spaced 0 value isExact (Nat.le_add_right _ 2) nothing
  rw [List.append_nil] at isRead
  simp only [read?, String.toList_ofList, isRead]
  rfl

end TreeLint.Json
