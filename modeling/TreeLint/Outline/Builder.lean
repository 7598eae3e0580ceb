import TreeLint.Outline

/-!
Assembling outlines: nodes of each kind with their usual parts, and functions that add to a node
one thing at a time.
-/

namespace TreeLint.Outline

def ofKind (kind : NodeKind) : Outline :=
  .mk { kind } []

/-! ## What a node says -/

def modifyFacts (f : Facts → Facts) : Outline → Outline :=
  modify fun content => { content with facts := f content.facts }

def named (outline : Outline) (name : String) : Outline :=
  outline.modify ({ · with name := some name })

def withText (outline : Outline) (text : String) : Outline :=
  outline.modify ({ · with text := some text })

def withRole (outline : Outline) (role : Role) : Outline :=
  outline.modify ({ · with role })

def withModifier (outline : Outline) (modifier : Modifier) : Outline :=
  outline.modify fun content =>
    if content.hasModifier modifier then content
    else { content with modifiers := content.modifiers ++ [modifier] }

def withLabel (outline : Outline) (label : String) : Outline :=
  outline.modify ({ · with label := some label })

/-- Gives the node a range of the source. -/
def withSpan (outline : Outline) (offset length : UInt64) : Outline :=
  outline.modify ({ · with span := some { offset, length } })

def withChild (outline : Outline) (child : Outline) : Outline :=
  outline.append [child]

def withType (outline : Outline) (typeName : String) : Outline :=
  outline.modifyFacts ({ · with typeName := some typeName })

def withConstant (outline : Outline) (value : Int64) : Outline :=
  outline.modifyFacts ({ · with constant := some value })

def withOperator (outline : Outline) (operator : Operator) : Outline :=
  outline.modifyFacts ({ · with operator := some operator })

def returning (outline : Outline) (typeName : String) : Outline :=
  outline.modifyFacts ({ · with returnType := some typeName })

def asConstructor (outline : Outline) : Outline :=
  outline.modifyFacts ({ · with isConstructor := true })

/-- Says whether the statement can complete normally. -/
def completing (outline : Outline) (completes : Bool) : Outline :=
  outline.modifyFacts ({ · with completesNormally := some completes })

/-- Says whether the statement or method always throws. -/
def throwing (outline : Outline) (throws : Bool) : Outline :=
  outline.modifyFacts ({ · with alwaysThrows := some throws })

def resolvingTo (outline : Outline) (target : Target) : Outline :=
  outline.modifyFacts ({ · with resolvesTo := some target })

def withClassKind (outline : Outline) (classKind : ClassKind) : Outline :=
  outline.modifyFacts ({ · with classKind })

def qualified (outline : Outline) (name : String) : Outline :=
  outline.modifyFacts ({ · with qualifiedName := some name })

def withSupertype (outline : Outline) (name : String) : Outline :=
  outline.modifyFacts fun facts => { facts with supertypes := facts.supertypes ++ [name] }

/-! ## Nodes with their usual parts -/

def file : Outline :=
  ofKind .file

def namedClass (name : String) : Outline :=
  (ofKind .namedClass).named name

def reference (name : String) : Outline :=
  (ofKind .reference).named name

def anonymousClass (base : String) : Outline :=
  (ofKind .anonymousClass).withChild ((reference base).withRole .baseClass)

def method (name : String) : Outline :=
  ((ofKind .method).named name).returning "void"

def constructor (name : String) : Outline :=
  ((ofKind .method).named name).asConstructor

/-- A field that shares the type written for the field before it. -/
def continuedField (name typeName : String) : Outline :=
  ((ofKind .field).named name).withType typeName

def typeElement (typeName : String) : Outline :=
  (ofKind .typeElement).withText typeName

def field (name typeName : String) : Outline :=
  (continuedField name typeName).withChild (typeElement typeName)

def localVariable (name typeName : String) : Outline :=
  ((ofKind .localVariable).named name).withType typeName

def codeBlock : Outline :=
  (ofKind .codeBlock).withRole .body

def expressionStatement (expression : Outline) : Outline :=
  (ofKind .expressionStatement).withChild expression

def returnStatement : Outline :=
  ofKind .returnStatement

def binary (operator : Operator) (lhs rhs : Outline) : Outline :=
  ((ofKind .binaryExpression).withOperator operator).append
    [lhs.withRole .lhs, rhs.withRole .rhs]

def call (name : String) (qualifier : Option Outline) : Outline :=
  ((ofKind .methodCall).named name).append
    (qualifier.map (·.withRole .qualifier)).toList

def withArgument (outline : Outline) (argument : Outline) : Outline :=
  outline.withChild (argument.withRole .argument)

def referenceExpression (name : String) : Outline :=
  (ofKind .referenceExpression).named name

def literal (text : String) : Outline :=
  (ofKind .literal).withText text

def comment (text : String) : Outline :=
  (ofKind .comment).withText text

end TreeLint.Outline
