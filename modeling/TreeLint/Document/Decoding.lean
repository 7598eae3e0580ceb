import TreeLint.Document.Basic
import TreeLint.Json.Reader

/-!
Reading documents. A record may be written as an object, whose unknown members are skipped, or
as the array of its fields. Containers that are read may nest up to a limit; what is skipped may
nest deeper.
-/

namespace TreeLint

/-- How many arrays and objects may stand inside each other in what is read of a document. -/
def nestingLimit : Nat := 127

namespace Json

/-- The fields of a record with the given field names, each with its name. A known key must not
repeat, every key must denote a text, and an array must not have more items than there are fields.
-/
def fields? (names : List String) : Json → Option (List (String × Json))
  | .object members => do
      let keyed ← members.mapM fun (key, value) => key.map (·, value)
      let known := keyed.filter (names.contains ·.1)
      if (known.map (·.1)).Nodup then some known else none
  | .array items => if items.length ≤ names.length then some (names.zip items) else none
  | _ => none

def nullable? (read : Json → Option α) : Option Json → Option (Option α)
  | none | some .null => some none
  | some value => (read value).map some

/-- A value that may be missing, but not null. -/
def orDefault? (default : α) (read : Json → Option α) : Option Json → Option α
  | none => some default
  | some value => read value

def text? : Json → Option String
  | .string text => some text
  | _ => none

def bool? : Json → Option Bool
  | .bool value => some value
  | _ => none

def natBelow? (bound : Nat) : Json → Option Nat
  | .integer (.ofNat n) => if n < bound then some n else none
  | _ => none

/-- A 32-bit number without sign. -/
def uint32? (value : Json) : Option UInt32 :=
  (value.natBelow? UInt32.size).map UInt32.ofNat

/-- A 64-bit number without sign. -/
def uint64? (value : Json) : Option UInt64 :=
  (value.natBelow? UInt64.size).map UInt64.ofNat

def int64? : Json → Option Int64
  | .integer n =>
      if Int64.minValue.toInt ≤ n ∧ n ≤ Int64.maxValue.toInt then some (Int64.ofInt n) else none
  | _ => none

/-- A choice among names: the name, or an object with the name as its only key and null as its
value. The object counts as a container.
-/
def choice? (ofName? : String → Option α) (room : Nat) : Json → Option α
  | .string name => ofName? name
  | .object [(some name, .null)] => if room = 0 then none else ofName? name
  | _ => none

/-- A list of items, inside a container of its own. -/
def list? (read : Nat → Json → Option α) : Nat → Json → Option (List α)
  | room + 1, .array items => items.mapM (read room)
  | _, _ => none

end Json

open Json

/-- Reads a span; `room` is the number of containers that may still open. -/
def Span.ofJson? : Nat → Json → Option Span
  | 0, _ => none
  | _ + 1, value => do
      let fields ← value.fields? ["offset", "length"]
      return {
        offset := ← (← fields.lookup "offset").uint64?
        length := ← (← fields.lookup "length").uint64?
      }

/-- Reads a declaration outside the tree. -/
def Symbol.ofJson? : Nat → Json → Option Symbol
  | 0, _ => none
  | room + 1, value => do
      let fields ←
        value.fields? ["kind", "qualified_name", "owner", "modifiers", "class_kind"]
      return {
        kind := ← (← fields.lookup "kind").choice? SymbolKind.ofName? room
        qualifiedName := ← (← fields.lookup "qualified_name").text?
        owner := ← nullable? text? (fields.lookup "owner")
        modifiers := ←
          orDefault? [] (list? (choice? Modifier.ofName?) room) (fields.lookup "modifiers")
        classKind := ←
          orDefault? .plain (choice? ClassKind.ofName? room) (fields.lookup "class_kind")
      }

def Target.ofJson? : Nat → Json → Option Target
  | room + 1, .object [(some key, value)] =>
      if key = "local" then value.text?.map .labelled
      else if key = "external" then (Symbol.ofJson? room value).map .external
      else none
  | _, _ => none

def Facts.fieldNames : List String :=
  ["constructor", "return_type", "type", "constant", "operator", "class_kind",
    "qualified_name", "supertypes", "resolves_to", "completes_normally", "always_throws"]

def Facts.ofJson? : Nat → Json → Option Facts
  | 0, _ => none
  | room + 1, value => do
      let fields ← value.fields? fieldNames
      return {
        isConstructor := ← orDefault? false bool? (fields.lookup "constructor")
        returnType := ← nullable? text? (fields.lookup "return_type")
        typeName := ← nullable? text? (fields.lookup "type")
        constant := ← nullable? int64? (fields.lookup "constant")
        operator := ← nullable? (choice? Operator.ofSymbol? room) (fields.lookup "operator")
        classKind := ←
          orDefault? .plain (choice? ClassKind.ofName? room) (fields.lookup "class_kind")
        qualifiedName := ← nullable? text? (fields.lookup "qualified_name")
        supertypes := ← orDefault? [] (list? (fun _ => text?) room) (fields.lookup "supertypes")
        resolvesTo := ← nullable? (Target.ofJson? room) (fields.lookup "resolves_to")
        completesNormally := ← nullable? bool? (fields.lookup "completes_normally")
        alwaysThrows := ← nullable? bool? (fields.lookup "always_throws")
      }

def Outline.fieldNames : List String :=
  ["kind", "label", "name", "text", "role", "modifiers", "span", "attrs", "children"]

/-- Reads a node from its fields, without its children. -/
def Content.ofFields? (room : Nat) (fields : List (String × Json)) : Option Content := do
  return {
    kind := ← (← fields.lookup "kind").choice? NodeKind.ofName? room
    label := ← nullable? text? (fields.lookup "label")
    name := ← nullable? text? (fields.lookup "name")
    text := ← nullable? text? (fields.lookup "text")
    role := ← orDefault? .other (choice? Role.ofName? room) (fields.lookup "role")
    modifiers := ←
      orDefault? [] (list? (choice? Modifier.ofName?) room) (fields.lookup "modifiers")
    span := ← nullable? (Span.ofJson? room) (fields.lookup "span")
    facts := ← orDefault? { } (Facts.ofJson? room) (fields.lookup "attrs")
  }

/-- Reads a node and everything below it. A node and its list of children are two containers. -/
def Outline.ofJson? : Nat → Json → Option Outline
  | 0, _ => none
  | 1, value => do
      let fields ← value.fields? fieldNames
      if (fields.lookup "children").isSome then none
      else return .mk (← Content.ofFields? 0 fields) []
  | room + 2, value => do
      let fields ← value.fields? fieldNames
      let content ← Content.ofFields? (room + 1) fields
      match fields.lookup "children" with
      | none => return .mk content []
      | some (.array items) => return .mk content (← items.mapM (ofJson? room))
      | some _ => none

namespace Document

def ofJson? : Nat → Json → Option Document
  | 0, _ => none
  | room + 1, value => do
      let fields ← value.fields? ["path", "source", "language_level", "read_only", "root"]
      return {
        path := ← nullable? text? (fields.lookup "path")
        source := ← nullable? text? (fields.lookup "source")
        languageLevel := ← nullable? uint32? (fields.lookup "language_level")
        readOnly := ← orDefault? false bool? (fields.lookup "read_only")
        root := ← Outline.ofJson? room (← fields.lookup "root")
      }

def read? (text : String) : Option Document := do
  ofJson? nestingLimit (← Json.read? text)

end Document

end TreeLint
