import TreeLint.Proofs.Document.RoundTrip
import TreeLint.Tree.Loading

/-! Documents whose members are put in another order or that have more members than are known. A
record is read by looking its fields up under their names, and that finds the same for every order
and whatever stands under other names; from the values inside out, nothing that is read changes.
Main result: texts of such documents give the same tree.
-/

namespace TreeLint

open Json

-----------------------------------------------------------------------------------------
-- What the values of a document stand for
-----------------------------------------------------------------------------------------

/-- What a value inside a document stands for. -/
inductive DocumentPart where
  | document
  | node
  /-- The children of a node. -/
  | nodes
  | span
  | facts
  /-- Where a reference points. -/
  | target
  | symbol
  /-- A value that has no record at it or inside it. -/
  | plain

namespace DocumentPart

/-- The names of the fields of those parts that are records. -/
def fieldNames? : DocumentPart → Option (List String)
  | .document => some ["path", "source", "language_level", "read_only", "root"]
  | .node => some Outline.fieldNames
  | .span => some ["offset", "length"]
  | .facts => some Facts.fieldNames
  | .symbol => some ["kind", "qualified_name", "owner", "modifiers", "class_kind"]
  | .nodes | .target | .plain => none

/-- What the value under a key stands for. -/
def below (part : DocumentPart) (key : String) : DocumentPart :=
  match part with
  | .document => if key = "root" then .node else .plain
  | .node =>
      if key = "span" then .span
      else if key = "attrs" then .facts
      else if key = "children" then .nodes
      else .plain
  | .facts => if key = "resolves_to" then .target else .plain
  | .target => if key = "external" then .symbol else .plain
  | .nodes | .span | .symbol | .plain => .plain

/-- What is read from a part. -/
def Value : DocumentPart → Type
  | .document => Document
  | .node => Outline
  | .nodes => List Outline
  | .span => Span
  | .facts => Facts
  | .target => Target
  | .symbol => Symbol
  | .plain => Json

/-- The reader of a part. -/
def read? : (part : DocumentPart) → Nat → Json → Option part.Value
  | .document => Document.ofJson?
  | .node => Outline.ofJson?
  | .nodes => list? Outline.ofJson?
  | .span => Span.ofJson?
  | .facts => Facts.ofJson?
  | .target => Target.ofJson?
  | .symbol => Symbol.ofJson?
  | .plain => fun _ value => some value

end DocumentPart

/-- The second value is the first with the members of records put in another order and with members
added under names that are no fields, any number of times and at any depth. What is added may be any
value, and its name, a text, may repeat.
-/
inductive Json.Rearranged : DocumentPart → Json → Json → Prop where
  | refl {part : DocumentPart} (value : Json) : Rearranged part value value
  | trans {part : DocumentPart} {first second third : Json} (before : Rearranged part first second)
      (after : Rearranged part second third)
      : Rearranged part first third
  | permuted {part : DocumentPart} {names : List String} (isRecord : part.fieldNames? = some names)
      {members others : List (Option String × Json)} (same : members.Perm others)
      : Rearranged part (.object members) (.object others)
  | added {part : DocumentPart} {names : List String} (isRecord : part.fieldNames? = some names)
      (before behind : List (Option String × Json)) {key : String} (unknown : key ∉ names)
      (value : Json)
      : Rearranged part (.object (before ++ behind))
          (.object (before ++ (some key, value) :: behind))
  | inside {part : DocumentPart} (before behind : List (Option String × Json)) {key : String}
      {value other : Json} (below : Rearranged (part.below key) value other)
      : Rearranged part (.object (before ++ (some key, value) :: behind))
          (.object (before ++ (some key, other) :: behind))
  | item (before behind : List Json) {value other : Json} (node : Rearranged .node value other)
      : Rearranged .nodes (.array (before ++ value :: behind)) (.array (before ++ other :: behind))

-----------------------------------------------------------------------------------------
-- Fields are looked up
-----------------------------------------------------------------------------------------

namespace Json

/-- The members of an object whose names are known. -/
def known (names : List String) (members : List (Option String × Json)) : List (String × Json) :=
  (members.filterMap fun (key, value) => key.map (·, value)).filter (names.contains ·.1)

/-- A function that fails nowhere on a list gives the list of its values. -/
theorem mapM_eq_filterMap (f : α → Option β) (items : List α)
    : items.mapM f
      = if ∀ item ∈ items, (f item).isSome then some (items.filterMap f) else none := by
  induction items with
  | nil => simp
  | cons item rest ih =>
      rw [List.mapM_cons, ih]
      cases here : f item with
      | none => simp [here]
      | some value =>
          by_cases all : ∀ item ∈ rest, (f item).isSome
          · rw [if_pos all, if_pos (by simpa [here] using all)]
            simp [here]
          · rw [if_neg all, if_neg (by simpa [here] using all)]
            rfl

/-- The members make a record: all names are texts, and the known ones do not repeat. -/
structure IsRecord (names : List String) (members : List (Option String × Json)) : Prop where
  texts : ∀ member ∈ members, member.1.isSome
  unique : ((known names members).map Prod.fst).Nodup

variable {names : List String} {members others : List (Option String × Json)}

theorem fields?_of_isRecord (record : IsRecord names members)
    : (object members).fields? names = some (known names members) := by
  rw [fields?, mapM_eq_filterMap, if_pos (by simpa using record.texts)]
  exact if_pos record.unique

theorem fields?_of_not_isRecord (other : ¬IsRecord names members)
    : (object members).fields? names = none := by
  rw [fields?, mapM_eq_filterMap]
  by_cases texts : ∀ member ∈ members, member.1.isSome
  · rw [if_pos (by simpa using texts)]
    exact if_neg fun unique => other ⟨texts, unique⟩
  · rw [if_neg (by simpa using texts)]
    rfl

/-- The order of members does not matter for what is known. -/
theorem known_perm (same : members.Perm others)
    : (known names members).Perm (known names others) :=
  (same.filterMap _).filter _

theorem known_append (names : List String) (before behind : List (Option String × Json))
    : known names (before ++ behind) = known names before ++ known names behind := by
  simp [known]

theorem known_cons (names : List String) (key : String) (value : Json)
    (behind : List (Option String × Json))
    : known names ((some key, value) :: behind)
      = if key ∈ names then (key, value) :: known names behind else known names behind := by
  by_cases listed : key ∈ names <;> simp [known, listed]

/-- Under a name that does not repeat stands what the list holds for it. -/
theorem lookup_eq_some_iff_mem {fields : List (String × Json)}
    (unique : (fields.map Prod.fst).Nodup) {key : String} {value : Json}
    : fields.lookup key = some value ↔ (key, value) ∈ fields := by
  induction fields with
  | nil => simp
  | cons field rest ih =>
      obtain ⟨name, written⟩ := field
      obtain ⟨fresh, distinct⟩ := List.nodup_cons.mp unique
      by_cases same : key = name
      · subst same
        have absent : (key, value) ∉ rest := fun member =>
          fresh (List.mem_map.mpr ⟨(key, value), member, rfl⟩)
        simp [absent, eq_comm]
      · have apart : (key == name) = false := by simpa using same
        simp [List.lookup_cons, apart, same, ih distinct]

end Json

namespace DocumentPart

/-- The two values are read alike, in whatever room; and none of them is null alone. -/
structure Alike (part : DocumentPart) (value other : Json) : Prop where
  null : value = .null ↔ other = .null
  reads : ∀ room, part.read? room value = part.read? room other

theorem Alike.refl (part : DocumentPart) (value : Json) : part.Alike value value :=
  ⟨Iff.rfl, fun _ => rfl⟩

theorem Alike.trans {part : DocumentPart} {first second third : Json}
    (before : part.Alike first second) (after : part.Alike second third)
    : part.Alike first third :=
  ⟨before.null.trans after.null, fun room => (before.reads room).trans (after.reads room)⟩

/-- The fields of two records are there or not alike, and are read alike. -/
def FieldsAlike (part : DocumentPart) : Option (List (String × Json))
    → Option (List (String × Json)) → Prop :=
  Option.Rel fun fields others => ∀ key,
    Option.Rel (part.below key).Alike (fields.lookup key) (others.lookup key)

variable {part : DocumentPart} {names : List String} {members others : List (Option String × Json)}

theorem rel_refl (found : Option Json) : Option.Rel part.Alike found found := by
  cases found with
  | none => exact .none
  | some value => exact .some (.refl part value)

/-- Objects with the same known names are alike if what is found under each of them is. -/
theorem fieldsAlike_of_lookups
    (texts : (∀ member ∈ members, member.1.isSome) ↔ ∀ member ∈ others, member.1.isSome)
    (keys : ((known names members).map Prod.fst).Perm ((known names others).map Prod.fst))
    (found
      : IsRecord names members
        → ∀ key,
          Option.Rel (part.below key).Alike ((known names members).lookup key)
            ((known names others).lookup key))
    : part.FieldsAlike ((object members).fields? names) ((object others).fields? names) := by
  have both : IsRecord names members ↔ IsRecord names others :=
    ⟨fun record => ⟨texts.mp record.texts, keys.nodup_iff.mp record.unique⟩,
      fun record => ⟨texts.mpr record.texts, keys.nodup_iff.mpr record.unique⟩⟩
  by_cases record : IsRecord names members
  · rw [fields?_of_isRecord record, fields?_of_isRecord (both.mp record)]
    exact .some (found record)
  · rw [fields?_of_not_isRecord record, fields?_of_not_isRecord (both.not.mp record)]
    exact .none

/-- The order of members does not matter. -/
theorem fieldsAlike_permuted (same : members.Perm others)
    : part.FieldsAlike ((object members).fields? names) ((object others).fields? names) := by
  have keys : ((known names members).map Prod.fst).Perm ((known names others).map Prod.fst) :=
    (known_perm same).map Prod.fst
  refine fieldsAlike_of_lookups (by simp [same.mem_iff]) keys fun record key => ?_
  have found : (known names members).lookup key = (known names others).lookup key := by
    refine Option.ext fun value => ?_
    rw [lookup_eq_some_iff_mem record.unique,
      lookup_eq_some_iff_mem (keys.nodup_iff.mp record.unique), (known_perm same).mem_iff]
  rw [found]
  exact rel_refl _

/-- A member under a name that is no field is skipped. -/
theorem fieldsAlike_added {key : String} (unknown : key ∉ names) (value : Json)
    (before behind : List (Option String × Json))
    : part.FieldsAlike ((object (before ++ behind)).fields? names)
        ((object (before ++ (some key, value) :: behind)).fields? names) := by
  have skipped : known names (before ++ (some key, value) :: behind)
      = known names (before ++ behind) := by
    simp [known_append, known_cons, unknown]
  refine fieldsAlike_of_lookups (by simp [or_imp, forall_and]) (by rw [skipped]) fun _ name => ?_
  rw [skipped]
  exact rel_refl _

/-- What is read alike inside a record makes the records alike. -/
theorem fieldsAlike_inside (before behind : List (Option String × Json)) {key : String}
    {value other : Json} (alike : (part.below key).Alike value other)
    : part.FieldsAlike ((object (before ++ (some key, value) :: behind)).fields? names)
        ((object (before ++ (some key, other) :: behind)).fields? names) := by
  have keys : (known names (before ++ (some key, value) :: behind)).map Prod.fst
      = (known names (before ++ (some key, other) :: behind)).map Prod.fst := by
    by_cases listed : key ∈ names <;> simp [known_append, known_cons, listed]
  refine fieldsAlike_of_lookups (by simp [or_imp, forall_and]) (by rw [keys]) fun _ name => ?_
  simp only [known_append, known_cons, List.lookup_append]
  cases (known names before).lookup name with
  | some found => exact rel_refl _
  | none =>
      by_cases same : name = key
      · subst same
        by_cases listed : name ∈ names
        · simpa [listed] using alike
        · simpa [listed] using rel_refl _
      · have apart : (name == key) = false := by simpa using same
        by_cases listed : key ∈ names
        · simpa [listed, List.lookup_cons, apart] using rel_refl _
        · simpa [listed] using rel_refl _

-----------------------------------------------------------------------------------------
-- Records are read by their fields
-----------------------------------------------------------------------------------------

/-- Values that hold no record are alike only if they are the same. -/
theorem eq_of_plain {found other : Option Json} (alike : Option.Rel (Alike .plain) found other)
    : found = other := by
  cases alike with
  | none => rfl
  | some alike => exact alike.reads 0

theorem nullable?_alike {found other : Option Json} (alike : Option.Rel part.Alike found other)
    (room : Nat)
    : nullable? (part.read? room) found = nullable? (part.read? room) other := by
  cases alike with
  | none => rfl
  | @some value other alike =>
      by_cases null : value = .null
      · rw [null, alike.null.mp null]
      · rw [nullable?_some null, nullable?_some (alike.null.not.mp null), alike.reads]

theorem orDefault?_alike {found other : Option Json} (alike : Option.Rel part.Alike found other)
    (default : part.Value) (room : Nat)
    : orDefault? default (part.read? room) found = orDefault? default (part.read? room) other := by
  cases alike with
  | none => rfl
  | some alike => exact alike.reads room

theorem bind_read?_alike {found other : Option Json} (alike : Option.Rel part.Alike found other)
    (room : Nat) (next : part.Value → Option α)
    : (found.bind fun value => (part.read? room value).bind next)
      = other.bind fun value => (part.read? room value).bind next := by
  cases alike with
  | none => rfl
  | some alike => simp [alike.reads room]

/-- What is read from the fields of a record alone is read alike. -/
theorem FieldsAlike.bind_eq {found others : Option (List (String × Json))}
    {read : List (String × Json) → Option α} (alike : part.FieldsAlike found others)
    (same
      : ∀ {fields others : List (String × Json)},
        (∀ key, Option.Rel (part.below key).Alike (fields.lookup key) (others.lookup key))
        → read fields = read others)
    : found.bind read = others.bind read := by
  cases alike with
  | none => rfl
  | some lookups => exact same lookups

variable {value other : Json} {room : Nat}

theorem read?_span
    (alike
      : FieldsAlike .span (value.fields? ["offset", "length"])
          (other.fields? ["offset", "length"]))
    : Span.ofJson? room value = Span.ofJson? room other := by
  cases room with
  | zero => rfl
  | succ room =>
      refine alike.bind_eq fun lookups => ?_
      have plain (key : String) := eq_of_plain (lookups key)
      simp [plain]

theorem read?_symbol
    (alike
      : FieldsAlike .symbol
          (value.fields? ["kind", "qualified_name", "owner", "modifiers", "class_kind"])
          (other.fields? ["kind", "qualified_name", "owner", "modifiers", "class_kind"]))
    : Symbol.ofJson? room value = Symbol.ofJson? room other := by
  cases room with
  | zero => rfl
  | succ room =>
      refine alike.bind_eq fun lookups => ?_
      have plain (key : String) := eq_of_plain (lookups key)
      simp [plain]

theorem read?_facts
    (alike : FieldsAlike .facts (value.fields? Facts.fieldNames) (other.fields? Facts.fieldNames))
    : Facts.ofJson? room value = Facts.ofJson? room other := by
  cases room with
  | zero => rfl
  | succ room =>
      refine alike.bind_eq fun {fields others} lookups => ?_
      have plain (key : String) (leaf : below .facts key = .plain)
          : fields.lookup key = others.lookup key :=
        eq_of_plain (leaf ▸ lookups key)
      have pointed
          : Option.Rel (Alike .target) (fields.lookup "resolves_to")
              (others.lookup "resolves_to") :=
        lookups "resolves_to"
      have target
          : nullable? (Target.ofJson? room) (fields.lookup "resolves_to")
            = nullable? (Target.ofJson? room) (others.lookup "resolves_to") :=
        nullable?_alike pointed room
      simp [plain, target, below]

theorem read?_node
    (alike : FieldsAlike .node (value.fields? Outline.fieldNames)
      (other.fields? Outline.fieldNames))
    : Outline.ofJson? room value = Outline.ofJson? room other := by
  cases room with
  | zero => rfl
  | succ room =>
      rw [Outline.ofJson?_succ, Outline.ofJson?_succ]
      refine alike.bind_eq fun {fields others} lookups => ?_
      have plain (key : String) (leaf : below .node key = .plain)
          : fields.lookup key = others.lookup key :=
        eq_of_plain (leaf ▸ lookups key)
      have placed : Option.Rel (Alike .span) (fields.lookup "span") (others.lookup "span") :=
        lookups "span"
      have known : Option.Rel (Alike .facts) (fields.lookup "attrs") (others.lookup "attrs") :=
        lookups "attrs"
      have listed
          : Option.Rel (Alike .nodes) (fields.lookup "children") (others.lookup "children") :=
        lookups "children"
      have span
          : nullable? (Span.ofJson? room) (fields.lookup "span")
            = nullable? (Span.ofJson? room) (others.lookup "span") :=
        nullable?_alike placed room
      have facts
          : orDefault? { } (Facts.ofJson? room) (fields.lookup "attrs")
            = orDefault? { } (Facts.ofJson? room) (others.lookup "attrs") :=
        orDefault?_alike known { } room
      have children
          : orDefault? [] (list? Outline.ofJson? room) (fields.lookup "children")
            = orDefault? [] (list? Outline.ofJson? room) (others.lookup "children") :=
        orDefault?_alike listed [] room
      simp [Content.ofFields?, plain, span, facts, children, below]

theorem read?_document
    (alike
      : FieldsAlike .document
          (value.fields? ["path", "source", "language_level", "read_only", "root"])
          (other.fields? ["path", "source", "language_level", "read_only", "root"]))
    : Document.ofJson? room value = Document.ofJson? room other := by
  cases room with
  | zero => rfl
  | succ room =>
      refine alike.bind_eq fun {fields others} lookups => ?_
      have plain (key : String) (leaf : below .document key = .plain)
          : fields.lookup key = others.lookup key :=
        eq_of_plain (leaf ▸ lookups key)
      have top : Option.Rel (Alike .node) (fields.lookup "root") (others.lookup "root") :=
        lookups "root"
      have root (next : Outline → Option Document)
          : ((fields.lookup "root").bind fun value => (Outline.ofJson? room value).bind next)
            = (others.lookup "root").bind fun value => (Outline.ofJson? room value).bind next :=
        bind_read?_alike top room next
      simp [plain, root, below]

/-- A reference outside the tree is an object with a single member, and its value is read. -/
theorem alike_target {key : String} {before behind : List (Option String × Json)}
    (alike : (below .target key).Alike value other)
    : Alike .target (.object (before ++ (some key, value) :: behind))
        (.object (before ++ (some key, other) :: behind)) := by
  refine ⟨by simp, fun room => ?_⟩
  change Target.ofJson? room _ = Target.ofJson? room _
  cases room with
  | zero => simp [Target.ofJson?]
  | succ room =>
      rcases before with _ | ⟨first, before⟩
      · rcases behind with _ | ⟨next, behind⟩
        · by_cases outside : key = "external"
          · have same : Symbol.ofJson? room value = Symbol.ofJson? room other := by
              subst outside
              exact alike.reads room
            simp [Target.ofJson?, same, outside]
          · have same : value = other := by
              simp only [below, if_neg outside] at alike
              exact Option.some.inj (alike.reads room)
            rw [same]
        · simp [Target.ofJson?]
      · cases before <;> simp [Target.ofJson?]

/-- Lists of nodes are read item by item. -/
theorem alike_nodes {before behind : List Json} (alike : Alike .node value other)
    : Alike .nodes (.array (before ++ value :: behind)) (.array (before ++ other :: behind)) := by
  refine ⟨by simp, fun room => ?_⟩
  change list? Outline.ofJson? room _ = list? Outline.ofJson? room _
  cases room with
  | zero => rfl
  | succ room =>
      have same : Outline.ofJson? room value = Outline.ofJson? room other := alike.reads room
      simp [list?, same]

/-- Records whose fields are read alike are read alike. -/
theorem read?_record (isRecord : part.fieldNames? = some names)
    (alike : part.FieldsAlike (value.fields? names) (other.fields? names))
    : part.read? room value = part.read? room other := by
  cases part <;> cases isRecord
  case document => exact read?_document alike
  case node => exact read?_node alike
  case span => exact read?_span alike
  case facts => exact read?_facts alike
  case symbol => exact read?_symbol alike

/-- What is read alike below a member is read alike. -/
theorem alike_inside (before behind : List (Option String × Json)) {key : String}
    (alike : (part.below key).Alike value other)
    : part.Alike (.object (before ++ (some key, value) :: behind))
        (.object (before ++ (some key, other) :: behind)) := by
  cases isRecord : part.fieldNames? with
  | some names =>
      exact ⟨by simp, fun room =>
        read?_record isRecord (fieldsAlike_inside before behind alike)⟩
  | none =>
      cases part with
      | nodes => exact ⟨by simp, fun room => by cases room <;> rfl⟩
      | target => exact alike_target alike
      | plain =>
          have same : value = other := Option.some.inj (alike.reads 0)
          rw [same]
          exact .refl _ _
      | document | node | span | facts | symbol => cases isRecord

/-- Rearranged values are read alike, from the values inside out. -/
theorem alike_of_rearranged (steps : value.Rearranged part other) : part.Alike value other := by
  induction steps with
  | refl value => exact .refl _ value
  | trans _ _ before after => exact before.trans after
  | permuted isRecord same =>
      exact ⟨by simp, fun room => read?_record isRecord (fieldsAlike_permuted same)⟩
  | added isRecord before behind unknown value =>
      exact ⟨by simp, fun room =>
        read?_record isRecord (fieldsAlike_added unknown value before behind)⟩
  | inside before behind _ alike => exact alike_inside before behind alike
  | item before behind _ alike => exact alike_nodes alike

end DocumentPart

/-- The order of members and members under other names do not matter: a text whose value is that of
a document with such changes gives the same tree.
-/
theorem Tree.read?_rearranged {text other : String} {value rearranged : Json}
    (isValue : Json.read? text = some value) (isOther : Json.read? other = some rearranged)
    (steps : value.Rearranged .document rearranged)
    : Tree.read? other = Tree.read? text := by
  have same : Document.ofJson? nestingLimit value = Document.ofJson? nestingLimit rearranged :=
    (DocumentPart.alike_of_rearranged steps).reads nestingLimit
  simp [Tree.read?, Document.read?, isValue, isOther, same]

/-- The document of a file of a type. -/
def typedFile : Json :=
  .object
    [(some "root",
      .object
        [(some "kind", .string "file"), (some "attrs", .object [(some "type", .string "A")])])]

/-- The same with the facts before the kind, and with members `x`: nested lists at the facts, and at
the file a number out of every range and a null.
-/
def scatteredFile : Json :=
  .object
    [(some "root",
      .object
        [(some "attrs",
            .object [(some "x", .array [.array [.null]]), (some "type", .string "A")]),
          (some "kind", .string "file"), (some "x", .integer 100000000000000000000),
          (some "x", .null)])]

theorem typedFile_scattered : typedFile.Rearranged .document scatteredFile := by
  have facts : (Json.object [(some "type", .string "A")]).Rearranged .facts
      (.object [(some "x", .array [.array [.null]]), (some "type", .string "A")]) :=
    .added rfl [] [_] (by decide) _
  have node
      : (Json.object
            [(some "kind", .string "file"), (some "attrs", .object [(some "type", .string "A")])]
          ).Rearranged .node
          (.object
            [(some "attrs",
                .object [(some "x", .array [.array [.null]]), (some "type", .string "A")]),
              (some "kind", .string "file"), (some "x", .integer 100000000000000000000),
              (some "x", .null)]) :=
    .trans (.inside [_] [] facts) <|
      .trans (.permuted rfl (.swap _ _ _)) <|
        .trans (.added rfl [_, _] [] (by decide) .null) (.added rfl [_, _] [_] (by decide) _)
  exact .inside [] [] node

/-- Both are read as the same tree, as they are printed. -/
theorem scatteredFile_read
    : (Tree.read? typedFile.indented).isSome
      ∧ Tree.read? scatteredFile.indented = Tree.read? typedFile.indented := by
  have isValue : Json.read? typedFile.indented = some typedFile :=
    Json.read?_print Json.Layout.indented_spaced (by simp [typedFile, Exact, MembersExact])
  have isOther : Json.read? scatteredFile.indented = some scatteredFile :=
    Json.read?_print Json.Layout.indented_spaced
      (by simp [scatteredFile, Exact, MembersExact, AllExact])
  refine ⟨?_, Tree.read?_rearranged isValue isOther typedFile_scattered⟩
  rw [Tree.read?, Document.read?, isValue]
  rfl

end TreeLint
