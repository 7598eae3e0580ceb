import TreeLint.Proofs.Document.Fields
import TreeLint.Proofs.Tree.Subtrees

/-! Values inside documents are read back where there is room for them, and only there. What is
read never needs more room when it is written again, because whatever is skipped or written in
another way needs no less.
-/

namespace TreeLint.Json

-----------------------------------------------------------------------------------------
-- Reading back
-----------------------------------------------------------------------------------------

/-- A value is read from its written form if and only if it fits into the room. -/
def IsReadBack (read : Nat → Json → Option α) (written : Json) (value : α) : Prop :=
  ∀ room, read room written = if written.depth ≤ room then some value else none

/-- What is read in some room fits into it when it is written. -/
def Covers (read : Nat → Json → Option α) (write : α → Json) (room : Nat) : Prop :=
  ∀ json value, read room json = some value → (write value).depth ≤ room

/-- The same for what may stand under the name of a field. -/
def FieldIsReadBack (read : Nat → Option Json → Option α) (written : Option Json) (value : α)
    : Prop :=
  ∀ room, read room written = if fieldDepth written ≤ room then some value else none

variable {read : Nat → Json → Option α} {write : α → Json}

theorem bind_ite_none {p : Prop} [Decidable p] (value : α) (next : α → Option β)
    : (if p then some value else none).bind next = if p then next value else none := by
  split <;> rfl

theorem IsReadBack.of_leaf {written : Json} {value : α} (leaf : written.depth = 0)
    (isRead : ∀ room, read room written = some value)
    : IsReadBack read written value := by
  intro room
  rw [isRead, leaf, if_pos (Nat.zero_le room)]

theorem nullable?_some {read : Json → Option α} {json : Json} (apart : json ≠ .null)
    : nullable? read (some json) = (read json).map some := by
  rw [nullable?]
  exact apart

theorem FieldIsReadBack.nullable (write : α → Json) (value : Option α)
    (back : ∀ inner ∈ value, IsReadBack read (write inner) inner ∧ write inner ≠ .null)
    : FieldIsReadBack (fun room => nullable? (read room)) (value.map write) value := by
  intro room
  cases value with
  | none => rfl
  | some inner =>
      obtain ⟨back, apart⟩ := back inner rfl
      change nullable? (read room) (some (write inner)) = _
      rw [nullable?_some apart, back room, Option.map_some, fieldDepth, Option.elim_some]
      split <;> rfl

theorem FieldIsReadBack.orDefault (write : α → Json) (default : α) {value : α}
    [Decidable (value = default)] (back : IsReadBack read (write value) value)
    : FieldIsReadBack (fun room => orDefault? default (read room))
        (omitDefault default write value) value := by
  intro room
  rw [omitDefault]
  split
  · next same => simp [orDefault?, fieldDepth, same]
  · exact back room

-----------------------------------------------------------------------------------------
-- Room for what was read
-----------------------------------------------------------------------------------------

theorem fieldDepth_map_le (write : α → Json) {room : Nat} {value : Option α}
    (shallow : ∀ inner ∈ value, (write inner).depth ≤ room)
    : fieldDepth (value.map write) ≤ room := by
  cases value with
  | none => exact Nat.zero_le room
  | some inner => exact shallow inner rfl

theorem fieldDepth_omitDefault_le (default : α) {room : Nat} {value : α}
    [Decidable (value = default)] (shallow : value ≠ default → (write value).depth ≤ room)
    : fieldDepth (omitDefault default write value) ≤ room := by
  rw [omitDefault]
  split
  · exact Nat.zero_le room
  · next apart => exact shallow apart

theorem Covers.of_leaf (leaf : ∀ value, (write value).depth = 0) (room : Nat)
    : Covers read write room :=
  fun _ value _ => leaf value ▸ Nat.zero_le room

theorem Covers.nullable {room : Nat} (covers : Covers read write room) {found : Option Json}
    {value : Option α} (isRead : nullable? (read room) found = some value)
    : fieldDepth (value.map write) ≤ room := by
  refine fieldDepth_map_le write fun inner same => ?_
  subst same
  match found with
  | some json =>
      by_cases null : json = .null
      · subst null
        cases isRead
      · rw [nullable?_some null] at isRead
        obtain ⟨_, isRead, same⟩ := Option.map_eq_some_iff.mp isRead
        cases same
        exact covers json _ isRead

theorem Covers.orDefault {room : Nat} (covers : Covers read write room) {default : α}
    {found : Option Json} {value : α} [Decidable (value = default)]
    (isRead : orDefault? default (read room) found = some value)
    : fieldDepth (omitDefault default write value) ≤ room := by
  refine fieldDepth_omitDefault_le default fun apart => ?_
  cases found with
  | none => exact absurd (Option.some.inj isRead).symm apart
  | some json => exact covers json value isRead

-----------------------------------------------------------------------------------------
-- Values without parts
-----------------------------------------------------------------------------------------

theorem isReadBack_text (text : String) : IsReadBack (fun _ => text?) (.string text) text :=
  .of_leaf rfl fun _ => rfl

theorem isReadBack_bool (value : Bool) : IsReadBack (fun _ => bool?) (.bool value) value :=
  .of_leaf rfl fun _ => rfl

theorem nullable_text (value : Option String)
    : FieldIsReadBack (fun _ => nullable? text?) (value.map .string) value :=
  .nullable .string value fun text _ => ⟨isReadBack_text text, nofun⟩

/-- Every name of a choice is read back, whatever the room. -/
theorem isReadBack_choice {ofName? : String → Option α} {name : α → String}
    (named : ∀ value, ofName? (name value) = some value) (value : α)
    : IsReadBack (choice? ofName?) (.string (name value)) value :=
  .of_leaf rfl fun _ => named value

theorem orDefault_choice {ofName? : String → Option α} {name : α → String}
    (named : ∀ value, ofName? (name value) = some value) (default value : α)
    [Decidable (value = default)]
    : FieldIsReadBack (fun room => orDefault? default (choice? ofName? room))
        (omitDefault default (fun value => .string (name value)) value) value :=
  .orDefault _ default (isReadBack_choice named value)

theorem isReadBack_int64 (value : Int64)
    : IsReadBack (fun _ => int64?) (.integer value.toInt) value := by
  refine .of_leaf rfl fun _ => ?_
  have bounds : Int64.minValue.toInt ≤ value.toInt ∧ value.toInt ≤ Int64.maxValue.toInt :=
    ⟨Int64.minValue_le_toInt value, Int64.toInt_le value⟩
  rw [int64?, if_pos bounds, Int64.ofInt_toInt]

theorem isReadBack_uint64 (value : UInt64)
    : IsReadBack (fun _ => uint64?) (.integer value.toNat) value := by
  refine .of_leaf rfl fun _ => ?_
  have bounded : value.toNat < UInt64.size := value.toNat_lt_size
  change (natBelow? UInt64.size (.integer (.ofNat value.toNat))).map UInt64.ofNat = some value
  rw [natBelow?, if_pos bounded, Option.map_some, UInt64.ofNat_toNat]

theorem isReadBack_uint32 (value : UInt32)
    : IsReadBack (fun _ => uint32?) (.integer value.toNat) value := by
  refine .of_leaf rfl fun _ => ?_
  have bounded : value.toNat < UInt32.size := value.toNat_lt_size
  change (natBelow? UInt32.size (.integer (.ofNat value.toNat))).map UInt32.ofNat = some value
  rw [natBelow?, if_pos bounded, Option.map_some, UInt32.ofNat_toNat]

-----------------------------------------------------------------------------------------
-- Lists
-----------------------------------------------------------------------------------------

/-- A list is read back if its items are, by induction on it. -/
theorem isReadBack_list (items : List α)
    (back : ∀ item ∈ items, IsReadBack read (write item) item)
    : IsReadBack (list? read) (arrayOf write items) items := by
  intro room
  cases room with
  | zero => exact (if_neg (by simp [arrayOf, depth])).symm
  | succ room =>
      rw [arrayOf, list?, depth]
      simp only [Nat.add_le_add_iff_right]
      induction items with
      | nil => simp [depthItems]
      | cons item items ih =>
          have first := back item List.mem_cons_self room
          have others := ih fun other inside => back other (List.mem_cons_of_mem item inside)
          simp only [List.map_cons, List.mapM_cons, first, others, depthItems, Nat.max_le]
          by_cases shallow : (write item).depth ≤ room
          · simp only [shallow, if_true, true_and]
            split <;> rfl
          · simp [shallow]

/-- A list that is read needs one container more than its items. -/
theorem Covers.list {room : Nat} (covers : ∀ inner < room, Covers read write inner)
    : Covers (list? read) (arrayOf write) room := by
  intro json items isRead
  cases room with
  | zero => cases json <;> cases isRead
  | succ room =>
      cases json with
      | array written =>
          rw [arrayOf, depth, Nat.add_le_add_iff_right, depthItems_le_iff, List.forall_mem_map]
          rw [list?, mapM_eq_some_iff] at isRead
          induction isRead with
          | nil => exact List.forall_mem_nil _
          | cons first _ others =>
              exact List.forall_mem_cons.mpr
                ⟨covers room (Nat.lt_succ_self room) _ _ first, others⟩
      | _ => cases isRead

-----------------------------------------------------------------------------------------
-- Records
-----------------------------------------------------------------------------------------

/-- A record is read back if its fields are, one container further in. -/
theorem IsReadBack.record {value : α} (names : List String) (fields : List (String × Option Json))
    (named : fields.map Prod.fst = names) (distinct : names.Nodup)
    (outside : ∀ json, read 0 json = none)
    (inside
      : ∀ room json members,
          json.fields? names = some members
          → (∀ key, members.lookup key = (fields.lookup key).join)
          → read (room + 1) json
            = if ∀ field ∈ fields, fieldDepth field.2 ≤ room then some value else none)
    : IsReadBack read (ofMembers (present fields)) value := by
  obtain ⟨members, known, under⟩ := fields?_record names fields named distinct
  intro room
  cases room with
  | zero => rw [outside, if_neg (Nat.not_le.mpr depth_record_pos)]
  | succ room =>
      rw [inside room _ members known under]
      simp only [depth_record_le_iff]

/-- What is read as a record fits into the room if its fields fit, one container further in. -/
theorem Covers.record {room : Nat} (fields : α → List (String × Option Json))
    (outside : ∀ json, read 0 json = none)
    (inside
      : ∀ inner < room, ∀ json value,
          read (inner + 1) json = some value
          → ∀ field ∈ fields value, fieldDepth field.2 ≤ inner)
    : Covers read (fun value => ofMembers (present (fields value))) room := by
  intro json value isRead
  cases room with
  | zero =>
      rw [outside] at isRead
      cases isRead
  | succ room =>
      exact depth_record_le_iff.mpr (inside room (Nat.lt_succ_self room) json value isRead)

end TreeLint.Json
