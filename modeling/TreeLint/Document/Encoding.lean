import TreeLint.Document.Basic
import TreeLint.Json.Printer

/-!
Documents as JSON. Members stand in a fixed order, and one whose value is the default is left
out.
-/

namespace TreeLint

namespace Json

def member? (key : String) (value : Option Json) : List (String × Json) :=
  (value.map (key, ·)).toList

def memberIf (key : String) (isOn : Bool) : List (String × Json) :=
  if isOn then [(key, .bool true)] else []

def memberList (key : String) (items : List Json) : List (String × Json) :=
  if items.isEmpty then [] else [(key, .array items)]

end Json

open Json

def Span.toJson (span : Span) : Json :=
  .ofMembers [("offset", .integer span.offset.toNat), ("length", .integer span.length.toNat)]

def ClassKind.members (kind : ClassKind) : List (String × Json) :=
  if kind = .plain then [] else [("class_kind", .string kind.name)]

/-- The members of a declaration outside the tree. -/
def Symbol.toJson (symbol : Symbol) : Json :=
  .ofMembers
    ([("kind", .string symbol.kind.name), ("qualified_name", .string symbol.qualifiedName)]
      ++ member? "owner" (symbol.owner.map .string)
      ++ memberList "modifiers" (symbol.modifiers.map (.string ·.name))
      ++ symbol.classKind.members)

def Target.toJson : Target → Json
  | .labelled label => .ofMembers [("local", .string label)]
  | .external symbol => .ofMembers [("external", symbol.toJson)]

def Facts.toJson (facts : Facts) : Json :=
  .ofMembers
    (memberIf "constructor" facts.isConstructor
      ++ member? "return_type" (facts.returnType.map .string)
      ++ member? "type" (facts.typeName.map .string)
      ++ member? "constant" (facts.constant.map (.integer ·.toInt))
      ++ member? "operator" (facts.operator.map (.string ·.symbol))
      ++ facts.classKind.members
      ++ member? "qualified_name" (facts.qualifiedName.map .string)
      ++ memberList "supertypes" (facts.supertypes.map .string)
      ++ member? "resolves_to" (facts.resolvesTo.map Target.toJson)
      ++ member? "completes_normally" (facts.completesNormally.map .bool)
      ++ member? "always_throws" (facts.alwaysThrows.map .bool))

def Content.members (content : Content) : List (String × Json) :=
  [("kind", .string content.kind.name)]
    ++ member? "label" (content.label.map .string)
    ++ member? "name" (content.name.map .string)
    ++ member? "text" (content.text.map .string)
    ++ (if content.role = .other then [] else [("role", .string content.role.name)])
    ++ memberList "modifiers" (content.modifiers.map (.string ·.name))
    ++ member? "span" (content.span.map Span.toJson)
    ++ (if content.facts = { } then [] else [("attrs", content.facts.toJson)])

namespace Outline

mutual
/-- The members of a node and of everything below it. -/
def toJson : Outline → Json
  | .mk content children =>
      .ofMembers (content.members ++ memberList "children" (toJsonAll children))

def toJsonAll : List Outline → List Json
  | [] => []
  | outline :: rest => outline.toJson :: toJsonAll rest
end

end Outline

namespace Document

def toJson (document : Document) : Json :=
  .ofMembers
    (member? "path" (document.path.map .string)
      ++ member? "source" (document.source.map .string)
      ++ member? "language_level" (document.languageLevel.map (.integer ·.toNat))
      ++ memberIf "read_only" document.readOnly
      ++ [("root", document.root.toJson)])

def render (document : Document) : String :=
  document.toJson.indented

end Document

end TreeLint
