import TreeLint.Proofs.Document.Values

/-! Documents are written and read back, record by record. Main results: a document is read from
its text if and only if it is not nested too deeply (`Document.read?_render`), and one that was read
is not, however it was written (`Document.depth_of_read?`).
-/

namespace TreeLint

open Json

-----------------------------------------------------------------------------------------
-- Spans
-----------------------------------------------------------------------------------------

def Span.fields (span : Span) : List (String × Option Json) :=
  [("offset", some (.integer span.offset.toNat)), ("length", some (.integer span.length.toNat))]

theorem Span.toJson_eq (span : Span) : span.toJson = .ofMembers (present span.fields) := rfl

theorem Span.isReadBack (span : Span) : IsReadBack ofJson? span.toJson span := by
  refine .record ["offset", "length"] span.fields rfl (by decide) (fun _ => rfl) ?_
  intro room json members known under
  have offset := isReadBack_uint64 span.offset room
  have length := isReadBack_uint64 span.length room
  rw [ofJson?, known]
  simp [under, fields, List.lookup_cons, offset, length]

theorem Span.covers (room : Nat) : Covers ofJson? toJson room :=
  .record fields (fun _ => rfl) fun inner _ json span _ => by simp [fields]

theorem Span.toJson_exact (span : Span) : span.toJson.Exact :=
  exact_record span.fields (by simp [fields, fieldExact_some])

-----------------------------------------------------------------------------------------
-- Declarations outside the tree
-----------------------------------------------------------------------------------------

theorem ClassKind.members_eq (kind : ClassKind)
    : kind.members = member? "class_kind" (omitDefault .plain (.string ·.name) kind) := by
  cases kind <;> rfl

def Symbol.fields (symbol : Symbol) : List (String × Option Json) :=
  [("kind", some (.string symbol.kind.name)),
    ("qualified_name", some (.string symbol.qualifiedName)),
    ("owner", symbol.owner.map .string),
    ("modifiers", omitDefault [] (arrayOf (.string ·.name)) symbol.modifiers),
    ("class_kind", omitDefault .plain (.string ·.name) symbol.classKind)]

theorem Symbol.toJson_eq (symbol : Symbol)
    : symbol.toJson = .ofMembers (present symbol.fields) := by
  rw [toJson, memberList_eq, ClassKind.members_eq]
  simp [fields, present, member?]

/-- A list of modifiers is read back where one more container fits. -/
theorem isReadBack_modifiers (modifiers : List Modifier)
    : FieldIsReadBack (fun room => orDefault? [] (list? (choice? Modifier.ofName?) room))
        (omitDefault [] (arrayOf (.string ·.name)) modifiers) modifiers :=
  .orDefault _ [] (isReadBack_list modifiers fun modifier _ =>
    isReadBack_choice Modifier.ofName?_name modifier)

theorem covers_modifiers {room : Nat} {found : Option Json} {modifiers : List Modifier}
    (isRead : orDefault? [] (list? (choice? Modifier.ofName?) room) found = some modifiers)
    : fieldDepth (omitDefault [] (arrayOf (.string ·.name)) modifiers) ≤ room :=
  (Covers.list fun inner _ => .of_leaf (fun _ => rfl) inner).orDefault isRead

/-- A declaration is read back with the owner, modifiers and kind that may be left out. -/
theorem Symbol.isReadBack (symbol : Symbol) : IsReadBack ofJson? symbol.toJson symbol := by
  rw [toJson_eq]
  refine .record ["kind", "qualified_name", "owner", "modifiers", "class_kind"] symbol.fields rfl
    (by decide) (fun _ => rfl) ?_
  intro room json members known under
  have kind := isReadBack_choice SymbolKind.ofName?_name symbol.kind room
  have owner := nullable_text symbol.owner room
  have modifiers := isReadBack_modifiers symbol.modifiers room
  have classKind := orDefault_choice ClassKind.ofName?_name .plain symbol.classKind room
  rw [ofJson?, known]
  simp [under, fields, List.lookup_cons, text?, kind, owner, modifiers, classKind, bind_ite_none]

theorem Symbol.covers (room : Nat) : Covers ofJson? toJson room := by
  rw [funext toJson_eq]
  refine .record fields (fun _ => rfl) fun inner _ json symbol isRead => ?_
  simp only [ofJson?, Option.bind_eq_bind, Option.bind_eq_some_iff, Option.pure_def,
    Option.some.injEq] at isRead
  obtain ⟨_, _, _, _, kind, _, _, _, qualifiedName, _, owner, _, modifiers, listed, classKind, _,
    rfl⟩ := isRead
  simp [fields, covers_modifiers listed]

theorem Symbol.toJson_exact (symbol : Symbol) : symbol.toJson.Exact := by
  rw [toJson_eq]
  refine exact_record symbol.fields ?_
  simp [fields, fieldExact_some, fieldExact_map, fieldExact_omitDefault, exact_arrayOf]

-----------------------------------------------------------------------------------------
-- Targets
-----------------------------------------------------------------------------------------

theorem Target.toJson_external_depth (symbol : Symbol)
    : (external symbol).toJson.depth = symbol.toJson.depth + 1 := by
  simp [toJson, ofMembers, depth, depthMembers]

theorem Target.isReadBack (target : Target) : IsReadBack ofJson? target.toJson target := by
  intro room
  cases room with
  | zero => cases target <;> exact (if_neg (Nat.not_succ_le_zero _)).symm
  | succ room =>
      cases target with
      | labelled label => rfl
      | external symbol =>
          simp only [toJson_external_depth, Nat.add_le_add_iff_right]
          change (Symbol.ofJson? room symbol.toJson).map external = _
          rw [symbol.isReadBack room]
          split <;> rfl

theorem Target.covers (room : Nat) : Covers ofJson? toJson room := by
  intro json target isRead
  cases target with
  | labelled label =>
      cases room with
      | zero => cases isRead
      | succ room => exact Nat.le_add_left 1 room
  | external symbol =>
      rw [toJson_external_depth]
      unfold ofJson? at isRead
      split at isRead
      · next room key value =>
          split at isRead
          · obtain ⟨_, _, same⟩ := Option.map_eq_some_iff.mp isRead
            cases same
          · split at isRead
            · obtain ⟨_, isRead, same⟩ := Option.map_eq_some_iff.mp isRead
              cases same
              exact Nat.succ_le_succ (Symbol.covers room value symbol isRead)
            · cases isRead
      · cases isRead

theorem Target.toJson_exact (target : Target) : target.toJson.Exact := by
  cases target with
  | labelled label => exact ⟨trivial, trivial⟩
  | external symbol => exact ⟨symbol.toJson_exact, trivial⟩

-----------------------------------------------------------------------------------------
-- Facts
-----------------------------------------------------------------------------------------

def Facts.fields (facts : Facts) : List (String × Option Json) :=
  [("constructor", omitDefault false .bool facts.isConstructor),
    ("return_type", facts.returnType.map .string),
    ("type", facts.typeName.map .string),
    ("constant", facts.constant.map (.integer ·.toInt)),
    ("operator", facts.operator.map (.string ·.symbol)),
    ("class_kind", omitDefault .plain (.string ·.name) facts.classKind),
    ("qualified_name", facts.qualifiedName.map .string),
    ("supertypes", omitDefault [] (arrayOf .string) facts.supertypes),
    ("resolves_to", facts.resolvesTo.map Target.toJson),
    ("completes_normally", facts.completesNormally.map .bool),
    ("always_throws", facts.alwaysThrows.map .bool)]

theorem Facts.toJson_eq (facts : Facts) : facts.toJson = .ofMembers (present facts.fields) := by
  rw [toJson, memberIf_eq, memberList_eq, ClassKind.members_eq]
  simp [fields, present]

/-- Facts are read back, whichever of them are left out. -/
theorem Facts.isReadBack (facts : Facts) : IsReadBack ofJson? facts.toJson facts := by
  rw [toJson_eq]
  refine .record fieldNames facts.fields rfl (by decide) (fun _ => rfl) ?_
  intro room json members known under
  have isConstructor := FieldIsReadBack.orDefault .bool false
    (isReadBack_bool facts.isConstructor) room
  have text (value : Option String) := nullable_text value room
  have constant := FieldIsReadBack.nullable _ facts.constant
    (fun value _ => ⟨isReadBack_int64 value, nofun⟩) room
  have operator := FieldIsReadBack.nullable _ facts.operator
    (fun op _ => ⟨isReadBack_choice Operator.ofSymbol?_symbol op, nofun⟩) room
  have classKind := orDefault_choice ClassKind.ofName?_name .plain facts.classKind room
  have supertypes := FieldIsReadBack.orDefault _ []
    (isReadBack_list facts.supertypes fun name _ => isReadBack_text name) room
  have resolvesTo := FieldIsReadBack.nullable Target.toJson facts.resolvesTo
    (fun target _ => ⟨target.isReadBack, by cases target <;> nofun⟩) room
  have flag (value : Option Bool) := FieldIsReadBack.nullable .bool value
    (fun value _ => ⟨isReadBack_bool value, nofun⟩) room
  rw [ofJson?, known]
  simp [under, fields, List.lookup_cons, isConstructor, text, constant, operator, classKind,
    supertypes, resolvesTo, flag, bind_ite_none, ite_and]

/-- Only supertypes and targets are containers among the facts. -/
theorem Facts.covers (room : Nat) : Covers ofJson? toJson room := by
  rw [funext toJson_eq]
  refine .record fields (fun _ => rfl) fun inner _ json facts isRead => ?_
  simp only [ofJson?, Option.bind_eq_bind, Option.bind_eq_some_iff, Option.pure_def,
    Option.some.injEq] at isRead
  obtain ⟨_, _, isConstructor, _, returnType, _, typeName, _, constant, _, operator, _, classKind,
    _, qualifiedName, _, supertypes, listed, resolvesTo, leads, completes, _, throws, _, rfl⟩ :=
    isRead
  have supertypesFit := (Covers.list fun inner _ => .of_leaf depth_string inner).orDefault listed
  have targetFits := (Target.covers inner).nullable leads
  simp [fields, supertypesFit, targetFits]

theorem Facts.toJson_exact (facts : Facts) : facts.toJson.Exact := by
  rw [toJson_eq]
  refine exact_record facts.fields ?_
  simp [fields, fieldExact_map, fieldExact_omitDefault, exact_arrayOf, Target.toJson_exact]

-----------------------------------------------------------------------------------------
-- Nodes
-----------------------------------------------------------------------------------------

/-- The fields of a node, without its children. -/
def Content.fields (content : Content) : List (String × Option Json) :=
  [("kind", some (.string content.kind.name)),
    ("label", content.label.map .string),
    ("name", content.name.map .string),
    ("text", content.text.map .string),
    ("role", omitDefault .other (.string ·.name) content.role),
    ("modifiers", omitDefault [] (arrayOf (.string ·.name)) content.modifiers),
    ("span", content.span.map Span.toJson),
    ("attrs", omitDefault { } Facts.toJson content.facts)]

theorem Content.members_eq (content : Content) : content.members = present content.fields := by
  have role : (if content.role = .other then [] else [("role", .string content.role.name)])
      = member? "role" (omitDefault .other (.string ·.name) content.role) := by
    cases content.role <;> rfl
  rw [members, memberList_eq, role, members_eq_omitDefault "attrs" _ Facts.toJson]
  simp [fields, present, member?]

/-- A node is read back without its children, whatever else is found. -/
theorem Content.isReadBack (content : Content) {room : Nat} {members : List (String × Json)}
    {others : List (String × Option Json)}
    (under : ∀ key, members.lookup key = ((content.fields ++ others).lookup key).join)
    : ofFields? room members
      = if ∀ field ∈ content.fields, fieldDepth field.2 ≤ room then some content else none := by
  have kind := isReadBack_choice NodeKind.ofName?_name content.kind room
  have text (value : Option String) := nullable_text value room
  have role := orDefault_choice Role.ofName?_name .other content.role room
  have modifiers := isReadBack_modifiers content.modifiers room
  have span := FieldIsReadBack.nullable Span.toJson content.span
    (fun span _ => ⟨span.isReadBack, nofun⟩) room
  have facts := FieldIsReadBack.orDefault Facts.toJson { } content.facts.isReadBack room
  rw [ofFields?]
  simp [under, fields, List.lookup_cons, kind, text, role, modifiers, span, facts,
    bind_ite_none, ite_and]

theorem Content.covers {room : Nat} {members : List (String × Json)} {content : Content}
    (isRead : ofFields? room members = some content)
    : ∀ field ∈ content.fields, fieldDepth field.2 ≤ room := by
  simp only [ofFields?, Option.bind_eq_bind, Option.bind_eq_some_iff, Option.pure_def,
    Option.some.injEq] at isRead
  obtain ⟨_, _, kind, _, label, _, name, _, text, _, role, _, modifiers, listed, span, ranges,
    facts, known, rfl⟩ := isRead
  have modifiersFit := covers_modifiers listed
  have spanFits := (Span.covers room).nullable ranges
  have factsFit := (Facts.covers room).orDefault known
  simp [fields, modifiersFit, spanFits, factsFit]

theorem Content.fields_exact (content : Content)
    : ∀ field ∈ content.fields, FieldExact field.2 := by
  simp [fields, fieldExact_some, fieldExact_map, fieldExact_omitDefault, exact_arrayOf,
    Span.toJson_exact, Facts.toJson_exact]

-----------------------------------------------------------------------------------------
-- Outlines
-----------------------------------------------------------------------------------------

namespace Outline

/-- Outlines have their children below them, so what holds of a node if it holds of its children
holds of all.
-/
theorem induction {motive : Outline → Prop}
    (step : ∀ content children, (∀ child ∈ children, motive child) → motive (mk content children))
    : ∀ outline, motive outline
  | mk content children => step content children fun child _ => induction step child
termination_by outline => sizeOf outline

/-- The fields of a node, the children behind the others. -/
def fields : Outline → List (String × Option Json)
  | mk content children =>
      content.fields ++ [("children", omitDefault [] (arrayOf toJson) children)]

theorem toJsonAll_eq_map (outlines : List Outline) : toJsonAll outlines = outlines.map toJson := by
  induction outlines with
  | nil => rfl
  | cons outline rest ih => rw [toJsonAll, ih, List.map_cons]

theorem toJson_eq (outline : Outline) : outline.toJson = .ofMembers (present outline.fields) := by
  cases outline with
  | mk content children =>
      rw [toJson, toJsonAll_eq_map, memberList_eq, Content.members_eq]
      simp [fields, present]

/-- Reading a node reads its fields and then its children, whether or not these have room. -/
theorem ofJson?_succ (room : Nat) (json : Json)
    : ofJson? (room + 1) json
      = do
          let members ← json.fields? fieldNames
          let content ← Content.ofFields? room members
          let children ← orDefault? [] (list? ofJson? room) (members.lookup "children")
          return mk content children := by
  cases known : json.fields? fieldNames with
  | none => cases room <;> simp [ofJson?, known]
  | some members =>
      cases found : members.lookup "children" with
      | none => cases room <;> simp [ofJson?, known, found, orDefault?]
      | some value =>
          cases room with
          | zero => simp [ofJson?, known, found, orDefault?, list?]
          | succ room => cases value <;> simp [ofJson?, known, found, orDefault?, list?]

/-- A node is read back with everything below it, by induction on the outline. -/
theorem isReadBack (outline : Outline) : IsReadBack ofJson? outline.toJson outline := by
  induction outline using Outline.induction with
  | step content children ih =>
      rw [toJson_eq]
      refine .record fieldNames (mk content children).fields rfl (by decide) (fun _ => rfl) ?_
      intro room json members known under
      rw [fields] at under ⊢
      have below := FieldIsReadBack.orDefault _ [] (isReadBack_list children ih) room
      have found : members.lookup "children" = omitDefault [] (arrayOf toJson) children := by
        simp [under, Content.fields, List.lookup_cons]
      simp only [ofJson?_succ, known, Option.bind_eq_bind, Option.bind_some,
        content.isReadBack under, found, below, bind_ite_none, List.forall_mem_append,
        List.forall_mem_singleton, ite_and]
      rfl

/-- An outline that was read fits into the room, by induction on the room: the children have two
containers less.
-/
theorem covers (room : Nat) : Covers ofJson? toJson room := by
  induction room using Nat.strongRecOn with
  | ind room ih =>
      rw [funext toJson_eq]
      refine .record fields (fun _ => rfl) fun inner smaller json outline isRead => ?_
      simp only [ofJson?_succ, Option.bind_eq_bind, Option.bind_eq_some_iff, Option.pure_def,
        Option.some.injEq] at isRead
      obtain ⟨members, _, content, node, children, isRead, rfl⟩ := isRead
      have items := Covers.list fun deeper less => ih deeper (Nat.lt_trans less smaller)
      rw [fields, List.forall_mem_append, List.forall_mem_singleton]
      exact ⟨Content.covers node, items.orDefault isRead⟩

theorem toJson_exact (outline : Outline) : outline.toJson.Exact := by
  induction outline using Outline.induction with
  | step content children ih =>
      rw [toJson_eq]
      refine exact_record _ ?_
      rw [fields, List.forall_mem_append, List.forall_mem_singleton]
      exact ⟨content.fields_exact, fieldExact_omitDefault [] (exact_arrayOf ih)⟩

end Outline

-----------------------------------------------------------------------------------------
-- Documents
-----------------------------------------------------------------------------------------

namespace Document

def fields (document : Document) : List (String × Option Json) :=
  [("path", document.path.map .string),
    ("source", document.source.map .string),
    ("language_level", document.languageLevel.map (.integer ·.toNat)),
    ("read_only", omitDefault false .bool document.readOnly),
    ("root", some document.root.toJson)]

theorem toJson_eq (document : Document)
    : document.toJson = .ofMembers (present document.fields) := by
  rw [toJson, memberIf_eq]
  simp [fields, present, member?]

theorem isReadBack (document : Document) : IsReadBack ofJson? document.toJson document := by
  rw [toJson_eq]
  refine .record ["path", "source", "language_level", "read_only", "root"] document.fields rfl
    (by decide) (fun _ => rfl) ?_
  intro room json members known under
  have text (value : Option String) := nullable_text value room
  have level := FieldIsReadBack.nullable _ document.languageLevel
    (fun level _ => ⟨isReadBack_uint32 level, nofun⟩) room
  have readOnly := FieldIsReadBack.orDefault .bool false (isReadBack_bool document.readOnly) room
  have root := document.root.isReadBack room
  rw [ofJson?, known]
  simp [under, fields, List.lookup_cons, text, level, readOnly, root, bind_ite_none]

theorem covers (room : Nat) : Covers ofJson? toJson room := by
  rw [funext toJson_eq]
  refine .record fields (fun _ => rfl) fun inner _ json document isRead => ?_
  simp only [ofJson?, Option.bind_eq_bind, Option.bind_eq_some_iff, Option.pure_def,
    Option.some.injEq] at isRead
  obtain ⟨_, _, path, _, source, _, level, _, readOnly, _, below, _, root, isRead, rfl⟩ := isRead
  simpa [fields] using Outline.covers inner below root isRead

theorem toJson_exact (document : Document) : document.toJson.Exact := by
  rw [toJson_eq]
  refine exact_record document.fields ?_
  simp [fields, fieldExact_some, fieldExact_map, fieldExact_omitDefault, Outline.toJson_exact]

/-- A document is read from its text if and only if it is not nested too deeply. -/
theorem read?_render (document : Document)
    : read? document.render
      = if document.toJson.depth ≤ nestingLimit then some document else none := by
  rw [read?, render, Json.indented, read?_print Layout.indented_spaced document.toJson_exact]
  exact document.isReadBack nestingLimit

/-- What is read is not nested too deeply when it is written again. -/
theorem depth_of_read? {text : String} {document : Document} (isRead : read? text = some document)
    : document.toJson.depth ≤ nestingLimit := by
  obtain ⟨json, _, isRead⟩ := Option.bind_eq_some_iff.mp isRead
  exact covers nestingLimit json document isRead

/-- A language level is no container. -/
theorem depth_withLevel_le (document : Document) {room : Nat}
    (shallow : document.toJson.depth ≤ room + 1)
    : document.withLevel.toJson.depth ≤ room + 1 := by
  rw [toJson_eq, depth_record_le_iff] at shallow ⊢
  rw [withLevel]
  simpa [fields] using shallow

end Document

end TreeLint
