import TreeLint.Proofs.Expression.Tokens
import TreeLint.Text.Case
import TreeLint.Text.Category

/-! The identifiers of Java, and what lower-casing does to them. Main result: the small letters of a
character begin an identifier exactly if the character does. The tables of categories and of letters
decide this, run by run.
-/

namespace TreeLint.Text

-----------------------------------------------------------------------------------------
-- Identifiers
-----------------------------------------------------------------------------------------

/-- Identifiers begin with letters, numbers made of letters, connectors and signs of currencies. -/
def Category.beginsIdentifier : Category → Bool
  | .uppercaseLetter | .lowercaseLetter | .titlecaseLetter | .modifierLetter | .otherLetter
  | .letterNumber | .connectorPunctuation | .currencySymbol => true
  | _ => false

/-- The character may begin an identifier. -/
def beginsIdentifier (c : Char) : Bool :=
  if c.toNat < 0x80 then
    c.isAlpha || c == '_' || c == '$'
  else
    (category c).beginsIdentifier

/-- The character may stand in an identifier: also digits, marks and what is ignored there. -/
def continuesIdentifier (c : Char) : Bool :=
  if c.toNat < 0x80 then
    c.isAlphanum || c == '_' || c == '$' || c.toNat < 9 || 13 < c.toNat && c.toNat < 28
      || c.toNat == 127
  else
    match category c with
    | .decimalNumber | .spacingMark | .nonspacingMark | .format | .control => true
    | other => other.beginsIdentifier

/-- The words that are no identifiers although they are made as such. -/
def reservedWords : List String :=
  Token.reserved ++ ["false", "new", "null", "super", "this", "true"]

/-- The characters are those of an identifier or of a reserved word. -/
def IsWord : List Char → Prop
  | [] => False
  | first :: rest => beginsIdentifier first = true ∧ ∀ c ∈ rest, continuesIdentifier c = true

instance : DecidablePred IsWord := fun chars =>
  match chars with
  | [] => isFalse not_false
  | _ :: rest => @instDecidableAnd _ _ _ (List.decidableBAll _ rest)

/-- The text is an identifier of Java. -/
def IsIdentifier (text : String) : Prop :=
  IsWord text.toList ∧ text ∉ reservedWords

instance : DecidablePred IsIdentifier := fun _ => inferInstanceAs (Decidable (_ ∧ _))

/-- The text is a sequence of identifiers with dots between them. -/
def IsQualifiedName (text : String) : Prop :=
  ∀ part ∈ text.toList.splitOn '.', IsIdentifier (String.ofList part)

instance : DecidablePred IsQualifiedName := fun _ => List.decidableBAll _ _

-----------------------------------------------------------------------------------------
-- Stretches of code points
-----------------------------------------------------------------------------------------

namespace Category

/-- The stretches of code points whose categories pass a test, each with its first code point and the
one behind its last. The runs begin at a place, where a stretch may have been opened before.
-/
def stretches (test : Category → Bool) (place : Nat) (opened : Option Nat)
    : List (Nat × Category) → List (Nat × Nat)
  | [] => (opened.map (·, place)).toList
  | (length, category) :: rest =>
      if test category then
        stretches test (place + length) (some (opened.getD place)) rest
      else
        (opened.map (·, place)).toList ++ stretches test (place + length) none rest

/-- A stretch has the code point. -/
def Among (stretches : List (Nat × Nat)) (n : Nat) : Prop :=
  ∃ stretch ∈ stretches, stretch.1 ≤ n ∧ n < stretch.2

theorem among_append {front behind : List (Nat × Nat)} {n : Nat}
    : Among (front ++ behind) n ↔ Among front n ∨ Among behind n := by
  simp only [Among, List.mem_append, or_and_right, exists_or]

theorem among_closed {place n : Nat} {opened : Option Nat}
    : Among (opened.map (·, place)).toList n ↔ ∃ first ∈ opened, first ≤ n ∧ n < place := by
  cases opened <;> simp [Among]

/-- The code points in the stretches are those that pass the test and those of the opened stretch, by
induction on the runs.
-/
theorem among_stretches {test : Category → Bool} (unassigned : test .unassigned = false)
    {runs : List (Nat × Category)} {place n : Nat} {opened : Option Nat}
    (before : ∀ first ∈ opened, first ≤ place)
    : Among (stretches test place opened runs) n
      ↔ (∃ first ∈ opened, first ≤ n ∧ n < place)
        ∨ place ≤ n ∧ test (find runs (n - place)) = true := by
  induction runs generalizing place opened with
  | nil =>
      rw [stretches, among_closed, find, unassigned]
      simp only [Bool.false_eq_true, and_false, or_false]
  | cons run rest ih =>
      obtain ⟨length, category⟩ := run
      have here : place ≤ n ∧ test (find ((length, category) :: rest) (n - place)) = true
          ↔ (place ≤ n ∧ n < place + length) ∧ test category = true
            ∨ place + length ≤ n ∧ test (find rest (n - (place + length))) = true := by
        rw [find, ← Nat.sub_sub]
        split
        · next early =>
            have : ¬place + length ≤ n := by omega
            simp only [this, false_and, or_false]
            exact and_congr_left' (by omega)
        · next late =>
            have : ¬(place ≤ n ∧ n < place + length) := by omega
            simp only [this, false_and, false_or]
            exact and_congr_left' (by omega)
      rw [here, stretches]
      split
      · next passes =>
          have wider : (∃ first ∈ some (opened.getD place), first ≤ n ∧ n < place + length)
              ↔ (∃ first ∈ opened, first ≤ n ∧ n < place) ∨ place ≤ n ∧ n < place + length := by
            cases opened with
            | none => simp
            | some first =>
                have := before first rfl
                simp
                omega
          have sooner : ∀ first ∈ some (opened.getD place), first ≤ place + length := by
            rintro first ⟨⟩
            cases opened with
            | none => exact Nat.le_add_right _ _
            | some first => exact Nat.le_add_right_of_le (before first rfl)
          rw [ih sooner, wider, passes, and_iff_left rfl, or_assoc]
      · next fails =>
          rw [among_append, among_closed, ih (by simp)]
          simp [fails]

/-- One stretch has so many code points from a first one on. -/
def covers (stretches : List (Nat × Nat)) (first count : Nat) : Bool :=
  stretches.any fun stretch => Nat.ble stretch.1 first && Nat.ble (first + count) stretch.2

/-- No stretch has any of so many code points from a first one on. -/
def avoids (stretches : List (Nat × Nat)) (first count : Nat) : Bool :=
  stretches.all fun stretch => Nat.ble (first + count) stretch.1 || Nat.ble stretch.2 first

/-- The stretches have all the code points from either of two on, so many of them, or none of them.
-/
def alike (stretches : List (Nat × Nat)) (first second count : Nat) : Bool :=
  covers stretches first count && covers stretches second count
    || avoids stretches first count && avoids stretches second count

section Alike

variable {stretches : List (Nat × Nat)} {first second count i : Nat}

theorem among_of_covers (covered : covers stretches first count = true) (inside : i < count)
    : Among stretches (first + i) := by
  obtain ⟨stretch, member, within⟩ := List.any_eq_true.mp covered
  simp only [Bool.and_eq_true, Nat.ble_eq] at within
  exact ⟨stretch, member, by omega, by omega⟩

theorem not_among_of_avoids (avoided : avoids stretches first count = true) (inside : i < count)
    : ¬Among stretches (first + i) := by
  rintro ⟨stretch, member, least, most⟩
  have apart := List.all_eq_true.mp avoided stretch member
  simp only [Bool.or_eq_true, Nat.ble_eq] at apart
  omega

theorem among_iff_of_alike (same : alike stretches first second count = true) (inside : i < count)
    : Among stretches (first + i) ↔ Among stretches (second + i) := by
  simp only [alike, Bool.or_eq_true, Bool.and_eq_true] at same
  rcases same with ⟨left, right⟩ | ⟨left, right⟩
  · exact iff_of_true (among_of_covers left inside) (among_of_covers right inside)
  · exact iff_of_false (not_among_of_avoids left inside) (not_among_of_avoids right inside)

end Alike

end Category

open Category

-----------------------------------------------------------------------------------------
-- Small letters
-----------------------------------------------------------------------------------------

/-- The stretches of the code points that may begin an identifier. -/
def beginnings : List (Nat × Nat) :=
  stretches Category.beginsIdentifier 0 none runs

theorem among_beginnings {n : Nat}
    : Among beginnings n ↔ (find runs n).beginsIdentifier = true := by
  rw [beginnings, among_stretches rfl (by simp)]
  simp

/-- What begins an identifier among the first characters is told by their categories, too. -/
theorem beginsIdentifier_ascii
    : ∀ n < 0x80,
        ((Char.ofNat n).isAlpha || Char.ofNat n == '_' || Char.ofNat n == '$')
        = (find runs n).beginsIdentifier := by
  rw [runs, categoryRuns, String.toList_join]
  simp only [List.flatMap_cons, List.flatMap_nil]
  repeat rw [String.toList_ofList]
  decide +kernel

theorem beginsIdentifier_iff {c : Char}
    : beginsIdentifier c = true ↔ Among beginnings c.toNat := by
  rw [among_beginnings, beginsIdentifier, category]
  split
  · next early => rw [← beginsIdentifier_ascii _ early, Char.ofNat_toNat]
  · rfl

/-- The characters of a run and their counterparts, which are characters, are alike in the stretches.
-/
def CaseRun.keeps (stretches : List (Nat × Nat)) : CaseRun → Bool
  | (first, last, step, distance) =>
      let count := last - first + 1
      let target := (first + distance).toNat
      0 ≤ first + distance
        && (target + count ≤ 0xD800 || 0xE000 ≤ target && target + count ≤ 0x110000)
        && (alike stretches first target count
          || (List.range count).all fun i =>
            i % step != 0 || alike stretches (first + i) (target + i) 1)

theorem CaseRun.keeps_iff {stretches : List (Nat × Nat)} {first last step n : Nat} {distance : Int}
    (keeps : CaseRun.keeps stretches (first, last, step, distance) = true)
    (least : first ≤ n) (most : n ≤ last) (inStep : (n - first) % step = 0)
    : (n + distance).toNat.isValidChar
      ∧ (Among stretches (n + distance).toNat ↔ Among stretches n) := by
  simp only [CaseRun.keeps, Bool.and_eq_true, Bool.or_eq_true, decide_eq_true_eq] at keeps
  obtain ⟨⟨positive, valid⟩, alike⟩ := keeps
  obtain ⟨i, rfl⟩ := Nat.exists_eq_add_of_le least
  have shifted : ((first + i : Nat) + distance).toNat = (first + distance).toNat + i := by omega
  rw [Nat.add_sub_cancel_left] at inStep
  refine ⟨?_, ?_⟩
  · rw [shifted, Nat.isValidChar]
    omega
  · rw [shifted]
    rcases alike with all | each
    · exact (among_iff_of_alike all (by omega)).symm
    · have here := List.all_eq_true.mp each i (List.mem_range.mpr (by omega))
      simp only [inStep, bne_self_eq_false, Bool.false_or] at here
      exact (among_iff_of_alike here Nat.one_pos).symm

/-- No small letter begins an identifier where its capital does not, or the other way round. -/
theorem lowerRuns_keep : ∀ run ∈ lowerRuns, CaseRun.keeps beginnings run = true := by
  rw [beginnings, runs, categoryRuns, String.toList_join]
  simp only [List.flatMap_cons, List.flatMap_nil]
  repeat rw [String.toList_ofList]
  decide +kernel

/-- A character and its counterpart among the small letters begin identifiers alike. -/
theorem beginsIdentifier_counterpart (c : Char)
    : beginsIdentifier (Char.ofNat (counterpart lowerRuns c.toNat)) = beginsIdentifier c := by
  rw [Bool.eq_iff_iff, beginsIdentifier_iff, beginsIdentifier_iff, counterpart]
  split
  · next first last step distance found =>
      have inside := List.find?_some found
      simp only [Bool.and_eq_true, decide_eq_true_eq, beq_iff_eq] at inside
      obtain ⟨⟨least, most⟩, inStep⟩ := inside
      obtain ⟨valid, same⟩ := CaseRun.keeps_iff
        (lowerRuns_keep _ (List.mem_of_find?_eq_some found)) least most inStep
      have back : (Char.ofNat (c.toNat + distance).toNat).toNat = (c.toNat + distance).toNat := by
        rw [Char.ofNat, dif_pos valid]
        rfl
      rw [back, same]
  · rw [Char.ofNat_toNat]

/-- The capital I with a dot is a letter, and the dot of its small letter a mark. -/
theorem dotted_categories
    : category 'İ' = .uppercaseLetter ∧ category '̇' = .nonspacingMark := by
  rw [category, category, runs, categoryRuns, String.toList_join]
  simp only [List.flatMap_cons, List.flatMap_nil]
  repeat rw [String.toList_ofList]
  decide +kernel

/-- The small letters of a character, with anything behind them, make a word exactly if the character
begins an identifier and what is behind continues it.
-/
theorem isWord_lower {first : Char} {rest : List Char}
    : IsWord (lower first ++ rest)
      ↔ beginsIdentifier first = true ∧ ∀ c ∈ rest, continuesIdentifier c = true := by
  rw [lower]
  split
  · next dotted =>
      have isDotted : first = 'İ' := Char.toNat_inj.mp dotted
      have letter : beginsIdentifier 'İ' = true := by
        rw [beginsIdentifier, dotted_categories.1]
        rfl
      have mark : continuesIdentifier '̇' = true := by
        rw [continuesIdentifier, dotted_categories.2]
        rfl
      have small : beginsIdentifier 'i' = true := rfl
      rw [isDotted, letter, List.cons_append, List.singleton_append, IsWord, small,
        List.forall_mem_cons, and_iff_right mark]
  · rw [List.singleton_append, IsWord, beginsIdentifier_counterpart]

end TreeLint.Text
