import Mathlib.Algebra.GroupWithZero.Nat
import Mathlib.Data.List.DropRight
import Mathlib.Data.List.Nodup
import Mathlib.Data.List.Perm.Subperm
import Mathlib.Data.Nat.Find
import Mathlib.Order.Bounds.Defs
import TreeLint.Fix.InnerClass

/-! The names of inner classes, where the stem of a name may be taken, and numbered names as well.
Different numbers make different names, so one of them is free as soon as there are more of them
than names taken. Main result: the search tries one number after the other and ends before its
counter does, at the least number that makes a free name.
-/

namespace TreeLint

-----------------------------------------------------------------------------------------
-- Numbered names
-----------------------------------------------------------------------------------------

theorem numbered_inj {stem : String} {first second : Nat}
    : stem ++ toString first = stem ++ toString second ↔ first = second := by
  refine ⟨fun same => ?_, fun same => by rw [same]⟩
  rw [String.append_right_inj, Nat.toString_eq_repr, Nat.toString_eq_repr] at same
  have digits := congrArg String.toList same
  rw [Nat.toList_repr, Nat.toList_repr] at digits
  -- The digits of a number are read back as that number.
  have values := congrArg (Nat.ofDigitChars 10 · 0) digits
  simpa [Nat.ofDigitChars_toDigits] using values

theorem numbered_ne_stem (stem : String) (number : Nat) : stem ++ toString number ≠ stem := by
  intro same
  have digits := congrArg String.toList same
  rw [String.toList_append, List.append_right_eq_self, Nat.toString_eq_repr, Nat.toList_repr]
    at digits
  exact Nat.toDigits_ne_nil digits

/-- Where the stem is taken, as many numbers as there are names taken make room for a free name: the
stem is no numbered name, so the names that are numbered are fewer.
-/
theorem exists_numbered_free {taken : List String} {stem : String} (used : stem ∈ taken)
    : ∃ number, 2 ≤ number ∧ number < 2 + taken.length ∧ stem ++ toString number ∉ taken := by
  by_contra none
  push Not at none
  let numbered := (List.range' 2 taken.length).map (stem ++ toString ·)
  have distinct : numbered.Nodup := List.Nodup.map (fun _ _ => numbered_inj.mp) List.nodup_range'
  have among : numbered ⊆ taken.erase stem := by
    intro name member
    obtain ⟨number, inside, rfl⟩ := List.mem_map.mp member
    rw [List.mem_range'_1] at inside
    exact (List.mem_erase_of_ne (numbered_ne_stem stem number)).mpr
      (none number inside.1 inside.2)
  have fewer := (List.subperm_of_subset distinct among).length_le
  rw [List.length_map, List.length_range', List.length_erase_of_mem used] at fewer
  have := List.length_pos_of_mem used
  omega

/-- The number is the least from two on that makes a free name of the stem. -/
def IsLeastFree (taken : String → Prop) (stem : String) (number : Nat) : Prop :=
  IsLeast {number | 2 ≤ number ∧ ¬taken (stem ++ toString number)} number

theorem IsLeastFree.taken_of_lt {taken : String → Prop} {stem : String} {number earlier : Nat}
    (least : IsLeastFree taken stem number) (fromTwo : 2 ≤ earlier) (below : earlier < number)
    : taken (stem ++ toString earlier) := by
  by_contra free
  exact Nat.not_lt_of_le (least.2 ⟨fromTwo, free⟩) below

theorem exists_leastFree {taken : List String} {stem : String} (used : stem ∈ taken)
    : ∃ number, IsLeastFree (· ∈ taken) stem number ∧ number < 2 + taken.length := by
  classical
  obtain ⟨bound, fromTwo, early, free⟩ := exists_numbered_free used
  have search : ∃ number, 2 ≤ number ∧ stem ++ toString number ∉ taken :=
    ⟨bound, fromTwo, free⟩
  refine ⟨Nat.find search, ⟨Nat.find_spec search, fun _ => Nat.find_min' search⟩, ?_⟩
  exact Nat.lt_of_le_of_lt (Nat.find_min' search ⟨fromTwo, free⟩) early

theorem freeName_of_not_mem {taken : List String} {stem : String} (free : stem ∉ taken)
    : freeName taken stem = stem := by
  rw [freeName, if_neg (by simpa using free)]

theorem freeName_of_mem {taken : List String} {stem : String} {number : Nat}
    (used : stem ∈ taken) (least : IsLeastFree (· ∈ taken) stem number)
    (early : number < 2 + taken.length)
    : freeName taken stem = stem ++ toString number := by
  obtain ⟨atLeast, free⟩ := least.1
  have found
      : (List.range' 2 (taken.length + 1)).find?
          ((!taken.contains ·) ∘ fun number => stem ++ toString number) = some number := by
    rw [List.find?_range'_eq_some, List.mem_range'_1]
    refine ⟨by simpa using free, ⟨atLeast, by omega⟩, fun earlier fromTwo below => ?_⟩
    simpa using least.taken_of_lt fromTwo below
  rw [freeName, if_pos (by simpa using used)]
  simp only [List.find?_map, found, Option.map_some, Option.getD_some]

-----------------------------------------------------------------------------------------
-- The search
-----------------------------------------------------------------------------------------

/-- The search for a free name that begins with a number ends with a name. From a number that makes a
name that is taken it goes on to the next one. The counter is a signed one of 32 bits, and moves on
before a number is tried.
-/
inductive SearchEnds (taken : String → Prop) (stem : String) : Nat → String → Prop where
  | here {number : Nat} (counted : number + 1 < 2 ^ 31)
    (free : ¬taken (stem ++ toString number))
    : SearchEnds taken stem number (stem ++ toString number)
  | later {number : Nat} {name : String} (counted : number + 1 < 2 ^ 31)
    (used : taken (stem ++ toString number)) (ends : SearchEnds taken stem (number + 1) name)
    : SearchEnds taken stem number name

/-- The search ends exactly if there is a free name that the counter reaches, and with the first of
them.
-/
theorem searchEnds_iff {taken : String → Prop} {stem : String} {start : Nat} {name : String}
    : SearchEnds taken stem start name
      ↔ ∃ number,
          start ≤ number
          ∧ number + 1 < 2 ^ 31
          ∧ (∀ earlier, start ≤ earlier → earlier < number → taken (stem ++ toString earlier))
          ∧ ¬taken (stem ++ toString number)
          ∧ name = stem ++ toString number := by
  constructor
  · intro ends
    induction ends with
    | @here start counted free =>
        exact ⟨start, le_rfl, counted, fun _ after below => by omega, free, rfl⟩
    | @later start name _ used _ ih =>
        obtain ⟨number, after, counted, between, free, rfl⟩ := ih
        refine ⟨number, by omega, counted, fun earlier fromStart below => ?_, free, rfl⟩
        rcases Nat.eq_or_lt_of_le fromStart with rfl | beyond
        · exact used
        · exact between earlier beyond below
  · rintro ⟨number, after, counted, between, free, rfl⟩
    -- Backwards from the number that ends the search to the one that begins it.
    induction after using Nat.decreasingInduction with
    | self => exact .here counted free
    | of_succ earlier below ih =>
        refine .later (by omega) (between earlier le_rfl below) (ih fun other beyond => ?_)
        exact between other (by omega)

-----------------------------------------------------------------------------------------
-- Inner classes
-----------------------------------------------------------------------------------------

/-- The second text is what stands behind the last dot of the first, or all of it where there is no
dot.
-/
def IsBehindLastDot (base simple : String) : Prop :=
  '.' ∉ simple.toList ∧ (base = simple ∨ ∃ before, base = before ++ "." ++ simple)

theorem isBehindLastDot_lastSegment (base : String)
    : IsBehindLastDot base (String.ofList (lastSegment base.toList)) := by
  have parts := List.rdropWhile_append_rtakeWhile (p := (· != '.')) (l := base.toList)
  rw [show lastSegment base.toList = base.toList.rtakeWhile (· != '.') from rfl]
  constructor
  · intro dot
    rw [String.toList_ofList] at dot
    simpa using List.mem_rtakeWhile_imp dot
  -- What is cut off is nothing, or it ends with a dot.
  · rcases List.eq_nil_or_concat (base.toList.rdropWhile (· != '.')) with nil | ⟨before, c, cut⟩
    · rw [nil, List.nil_append] at parts
      exact .inl (by rw [parts, String.ofList_toList])
    · have isDot : c = '.' := by
        have := List.rdropWhile_last_not (· != '.') base.toList (by simp [cut])
        simpa [cut] using this
      refine .inr ⟨String.ofList before, String.toList_inj.mp ?_⟩
      rw [cut, isDot] at parts
      simpa using parts.symm

/-- There is but one text behind the last dot. -/
theorem IsBehindLastDot.eq_lastSegment {base simple : String} (behind : IsBehindLastDot base simple)
    : simple = String.ofList (lastSegment base.toList) := by
  obtain ⟨noDot, whole⟩ := behind
  have all : ∀ c ∈ simple.toList.reverse, (c != '.') = true := fun c member => by
    simpa using ne_of_mem_of_not_mem (List.mem_reverse.mp member) noDot
  rcases whole with rfl | ⟨before, rfl⟩
  · rw [lastSegment, List.takeWhile_eq_self_iff.mpr all, List.reverse_reverse,
      String.ofList_toList]
  · simp [lastSegment, List.takeWhile_append_of_pos all]

/-- One of the classes right inside has the name. -/
def Subtree.HasMemberClass (node : Subtree) (name : String) : Prop :=
  ∃ member ∈ node.childrenOfKind .namedClass, member.name? = some name

instance (node : Subtree) (name : String) : Decidable (node.HasMemberClass name) :=
  inferInstanceAs (Decidable (∃ member ∈ _, _))

namespace Fix

/-- The name of an inner class is that of no other class next to it. It is what stands behind the last
dot of the base, with `Impl` added. Where that is taken, the search among the numbered names ends, and
the name is the one with the least number that makes a free name.
-/
theorem innerClassName_leastFree (outer : Subtree) (base : String)
    (few : (outer.childrenOfKind .namedClass).length < 2 ^ 31 - 2)
    : ∃ simple,
        IsBehindLastDot base simple
        ∧ let stem := simple ++ "Impl"
          let name := innerClassName outer base
          ¬outer.HasMemberClass name
          ∧ (¬outer.HasMemberClass stem → name = stem)
          ∧ (outer.HasMemberClass stem →
              SearchEnds outer.HasMemberClass stem 2 name
              ∧ ∃ number,
                  IsLeastFree outer.HasMemberClass stem number
                  ∧ name = stem ++ toString number) := by
  let names := (outer.childrenOfKind .namedClass).filterMap (·.name?)
  have isTaken : outer.HasMemberClass = (· ∈ names) := by
    funext name
    exact propext List.mem_filterMap.symm
  have fewer : names.length ≤ (outer.childrenOfKind .namedClass).length :=
    List.length_filterMap_le _ _
  refine ⟨_, isBehindLastDot_lastSegment base, ?_⟩
  intro stem name
  have isName : name = freeName names stem := rfl
  rw [isTaken, isName]
  by_cases used : stem ∈ names
  · obtain ⟨number, least, early⟩ := exists_leastFree used
    rw [freeName_of_mem used least early]
    refine ⟨least.1.2, fun free => absurd used free, fun _ => ⟨?_, number, least, rfl⟩⟩
    refine searchEnds_iff.mpr ⟨number, least.1.1, by omega, ?_, least.1.2, rfl⟩
    exact fun earlier fromTwo below => least.taken_of_lt fromTwo below
  · rw [freeName_of_not_mem used]
    exact ⟨used, fun _ => rfl, fun taken => absurd taken used⟩

end Fix

/-- A class with member classes that take the name without a number and those with two and three.
The name with four is that of a method.
-/
def crowdedClass : Subtree :=
  let inner (id : NodeId) (name : String) : Subtree := .mk id (Outline.namedClass name).content []
  .mk 0 (Outline.namedClass "Outer").content
    [inner 1 "BaseImpl3", inner 2 "BaseImpl", .mk 3 (Outline.method "BaseImpl4").content [],
      inner 4 "BaseImpl2"]

theorem crowdedClass_numbered
    : (crowdedClass.childrenOfKind .namedClass).length < 2 ^ 31 - 2
      ∧ Fix.innerClassName crowdedClass "pkg.Base" = "BaseImpl4"
      ∧ ¬crowdedClass.HasMemberClass "BaseImpl4"
      ∧ crowdedClass.HasMemberClass "BaseImpl"
      ∧ SearchEnds crowdedClass.HasMemberClass "BaseImpl" 2 "BaseImpl4" := by
  have few : (crowdedClass.childrenOfKind .namedClass).length < 2 ^ 31 - 2 := by decide
  have isName : Fix.innerClassName crowdedClass "pkg.Base" = "BaseImpl4" := by decide +kernel
  have used : crowdedClass.HasMemberClass "BaseImpl" := by decide +kernel
  obtain ⟨simple, behind, free, _, search⟩ :=
    Fix.innerClassName_leastFree crowdedClass "pkg.Base" few
  have isSimple : simple = "Base" := behind.eq_lastSegment.trans (by decide +kernel)
  rw [isName] at free search
  rw [isSimple] at search
  exact ⟨few, isName, free, used, (search used).1⟩

end TreeLint
