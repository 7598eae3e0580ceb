import Mathlib.Data.List.Nodup
import TreeLint.Proofs.Json.RoundTrip
import TreeLint.Document.Decoding
import TreeLint.Document.Encoding

/-! Records are read back field by field. A record is seen as the list of its fields, each with
what is written for it, if anything: reading finds under each name what was written there, and the
record is one container deeper than the deepest of its fields.
-/

namespace TreeLint.Json

-----------------------------------------------------------------------------------------
-- Fields
-----------------------------------------------------------------------------------------

/-- The members that are written for some fields. -/
def present (fields : List (String × Option Json)) : List (String × Json) :=
  fields.flatMap fun (key, written) => member? key written

/-- What is written for a value that has a default: nothing for the default. -/
def omitDefault (default : α) (write : α → Json) (value : α) [Decidable (value = default)]
    : Option Json :=
  if value = default then none else some (write value)

/-- What is written for a list. -/
def arrayOf (write : α → Json) (items : List α) : Json :=
  .array (items.map write)

theorem memberIf_eq (key : String) (isOn : Bool)
    : memberIf key isOn = member? key (omitDefault false .bool isOn) := by
  cases isOn <;> rfl

theorem memberList_eq (key : String) (write : α → Json) (items : List α) [Decidable (items = [])]
    : memberList key (items.map write) = member? key (omitDefault [] (arrayOf write) items) := by
  rw [omitDefault]
  cases items with
  | nil => rw [if_pos rfl]; rfl
  | cons item items => rw [if_neg (by simp)]; rfl

theorem members_eq_omitDefault (key : String) (default : α) (write : α → Json) (value : α)
    [Decidable (value = default)]
    : (if value = default then [] else [(key, write value)])
      = member? key (omitDefault default write value) := by
  rw [omitDefault]
  split <;> rfl

variable {fields : List (String × Option Json)}

theorem present_cons (key : String) (written : Option Json)
    : present ((key, written) :: fields) = member? key written ++ present fields :=
  List.flatMap_cons

/-- Members stand in the order of the fields. -/
theorem present_keys_sublist (fields : List (String × Option Json))
    : ((present fields).map Prod.fst).Sublist (fields.map Prod.fst) := by
  induction fields with
  | nil => exact List.Sublist.slnil
  | cons field fields ih =>
      obtain ⟨key, written⟩ := field
      cases written with
      | none => exact ih.cons key
      | some value => exact ih.cons_cons key

/-- All members of a record are known, and none repeats. -/
theorem fields?_present (distinct : (fields.map Prod.fst).Nodup)
    : (ofMembers (present fields)).fields? (fields.map Prod.fst) = some (present fields) := by
  have keyed (members : List (String × Json))
      : (members.map fun member => (some member.1, member.2)).mapM
          (fun member : Option String × Json => member.1.map (·, member.2)) = some members := by
    induction members with
    | nil => rfl
    | cons member members ih => simp [ih]
  have known : (present fields).filter ((fields.map Prod.fst).contains ·.1) = present fields :=
    List.filter_eq_self.mpr fun member inside => by
      simpa using (present_keys_sublist fields).subset (List.mem_map_of_mem inside)
  change (((present fields).map fun member => (some member.1, member.2)).mapM
    (fun member : Option String × Json => member.1.map (·, member.2))).bind _ = _
  simp only [keyed, known, Option.bind_some]
  exact if_pos ((present_keys_sublist fields).nodup distinct)

/-- Under the name of each field stands what was written for it. -/
theorem lookup_present (distinct : (fields.map Prod.fst).Nodup) (key : String)
    : (present fields).lookup key = (fields.lookup key).join := by
  induction fields generalizing key with
  | nil => rfl
  | cons field fields ih =>
      obtain ⟨name, written⟩ := field
      obtain ⟨fresh, others⟩ := List.nodup_cons.mp distinct
      rw [present_cons, List.lookup_append, ih others]
      by_cases same : key = name
      · subst same
        have absent : fields.lookup key = none := by
          refine List.lookup_eq_none_iff.mpr fun other inside => ?_
          have apart : key ≠ other.1 := by
            rintro rfl
            exact fresh (List.mem_map.mpr ⟨other, inside, rfl⟩)
          simpa using apart
        cases written <;> simp [member?, absent]
      · have apart : (key == name) = false := by simpa using same
        cases written <;> simp [member?, List.lookup_cons, apart]

/-- The fields of a record are found under their names. -/
theorem fields?_record (names : List String) (fields : List (String × Option Json))
    (named : fields.map Prod.fst = names) (distinct : names.Nodup)
    : ∃ members,
        (ofMembers (present fields)).fields? names = some members
        ∧ ∀ key, members.lookup key = (fields.lookup key).join := by
  subst named
  exact ⟨present fields, fields?_present distinct, lookup_present distinct⟩

-----------------------------------------------------------------------------------------
-- Depth
-----------------------------------------------------------------------------------------

/-- The depth of what is written for a field. -/
def fieldDepth (written : Option Json) : Nat :=
  written.elim 0 depth

@[simp] theorem fieldDepth_some (written : Json) : fieldDepth (some written) = written.depth := rfl

@[simp] theorem depth_string (text : String) : (string text).depth = 0 := rfl

@[simp] theorem depth_bool (value : Bool) : (bool value).depth = 0 := rfl

@[simp] theorem depth_integer (value : Int) : (integer value).depth = 0 := rfl

/-- A field that holds no container has no depth, whether it is written or not. -/
theorem fieldDepth_map_leaf {write : α → Json} (leaf : ∀ value, (write value).depth = 0)
    (value : Option α)
    : fieldDepth (value.map write) = 0 := by
  cases value with
  | none => rfl
  | some value => exact leaf value

theorem fieldDepth_omitDefault_leaf {write : α → Json} (leaf : ∀ value, (write value).depth = 0)
    (default value : α) [Decidable (value = default)]
    : fieldDepth (omitDefault default write value) = 0 := by
  rw [omitDefault]
  split
  · rfl
  · exact leaf value

@[simp] theorem fieldDepth_text (value : Option String) : fieldDepth (value.map string) = 0 :=
  fieldDepth_map_leaf depth_string value

@[simp] theorem fieldDepth_name (name : α → String) (value : Option α)
    : fieldDepth (value.map fun value => string (name value)) = 0 :=
  fieldDepth_map_leaf (fun value => depth_string (name value)) value

@[simp] theorem fieldDepth_bool (value : Option Bool) : fieldDepth (value.map bool) = 0 :=
  fieldDepth_map_leaf depth_bool value

@[simp] theorem fieldDepth_integer (number : α → Int) (value : Option α)
    : fieldDepth (value.map fun value => integer (number value)) = 0 :=
  fieldDepth_map_leaf (fun value => depth_integer (number value)) value

@[simp] theorem fieldDepth_otherName (name : α → String) (default value : α)
    [Decidable (value = default)]
    : fieldDepth (omitDefault default (fun value => string (name value)) value) = 0 :=
  fieldDepth_omitDefault_leaf (fun value => depth_string (name value)) default value

@[simp] theorem fieldDepth_flag (value : Bool) [Decidable (value = false)]
    : fieldDepth (omitDefault false bool value) = 0 :=
  fieldDepth_omitDefault_leaf depth_bool false value

theorem depthMembers_le_iff {members : List (Option String × Json)} {room : Nat}
    : depthMembers members ≤ room ↔ ∀ member ∈ members, member.2.depth ≤ room := by
  induction members with
  | nil => simp [depthMembers]
  | cons member members ih =>
      rw [depthMembers, Nat.max_le, ih, List.forall_mem_cons]

theorem depthItems_le_iff {items : List Json} {room : Nat}
    : depthItems items ≤ room ↔ ∀ item ∈ items, item.depth ≤ room := by
  induction items with
  | nil => simp [depthItems]
  | cons item items ih => rw [depthItems, Nat.max_le, ih, List.forall_mem_cons]

theorem mem_present {key : String} {value : Json}
    : (key, value) ∈ present fields ↔ (key, some value) ∈ fields := by
  simp only [present, List.mem_flatMap, member?, Option.mem_toList, Option.map_eq_some_iff]
  constructor
  · rintro ⟨⟨name, written⟩, inside, found, rfl, same⟩
    cases same
    exact inside
  · exact fun inside => ⟨(key, some value), inside, value, rfl, rfl⟩

/-- A record is one container around its fields. -/
theorem depth_record_le_iff {room : Nat}
    : (ofMembers (present fields)).depth ≤ room + 1
      ↔ ∀ field ∈ fields, fieldDepth field.2 ≤ room := by
  rw [ofMembers, depth, Nat.add_le_add_iff_right, depthMembers_le_iff, List.forall_mem_map]
  constructor
  · rintro shallow ⟨key, written⟩ inside
    cases written with
    | none => exact Nat.zero_le _
    | some value => exact shallow (key, value) (mem_present.mpr inside)
  · rintro shallow ⟨key, value⟩ inside
    exact shallow (key, some value) (mem_present.mp inside)

theorem depth_record_pos : 0 < (ofMembers (present fields)).depth := by
  rw [ofMembers, depth]
  exact Nat.succ_pos _

-----------------------------------------------------------------------------------------
-- Numbers without fraction
-----------------------------------------------------------------------------------------

theorem membersExact_iff {members : List (Option String × Json)}
    : MembersExact members ↔ ∀ member ∈ members, member.2.Exact := by
  induction members with
  | nil => simp [MembersExact]
  | cons member members ih => rw [MembersExact, ih, List.forall_mem_cons]

theorem allExact_iff {items : List Json} : AllExact items ↔ ∀ item ∈ items, item.Exact := by
  induction items with
  | nil => simp [AllExact]
  | cons item items ih => rw [AllExact, ih, List.forall_mem_cons]

@[simp] theorem exact_string (text : String) : (string text).Exact := trivial

@[simp] theorem exact_bool (value : Bool) : (bool value).Exact := trivial

@[simp] theorem exact_integer (value : Int) : (integer value).Exact := trivial

/-- There is no fraction in what is written for a field. -/
def FieldExact (written : Option Json) : Prop :=
  ∀ value ∈ written, value.Exact

theorem fieldExact_some {value : Json} (exact : value.Exact) : FieldExact (some value) := by
  rintro _ ⟨⟩
  exact exact

theorem fieldExact_map {write : α → Json} (exact : ∀ value, (write value).Exact)
    (value : Option α)
    : FieldExact (value.map write) := by
  cases value with
  | none => nofun
  | some value => exact fieldExact_some (exact value)

theorem fieldExact_omitDefault {write : α → Json} (default : α) {value : α}
    [Decidable (value = default)] (exact : (write value).Exact)
    : FieldExact (omitDefault default write value) := by
  rw [omitDefault]
  split
  · nofun
  · exact fieldExact_some exact

theorem exact_arrayOf {write : α → Json} {items : List α}
    (exact : ∀ item ∈ items, (write item).Exact)
    : (arrayOf write items).Exact := by
  rw [arrayOf, Exact, allExact_iff, List.forall_mem_map]
  exact exact

theorem exact_record (fields : List (String × Option Json))
    (exact : ∀ field ∈ fields, FieldExact field.2)
    : (ofMembers (present fields)).Exact := by
  rw [ofMembers, Exact, membersExact_iff, List.forall_mem_map]
  rintro ⟨key, value⟩ inside
  exact exact (key, some value) (mem_present.mp inside) value rfl

end TreeLint.Json
