import TreeLint.Text.Basic

/-!
The kinds of nodes in a syntax tree, their groups and their names in documents. Main statement:
a kind is read back from its name (`NodeKind.ofName?_name`).
-/

namespace TreeLint

inductive NodeKind where
  | file
  | importList
  | importStatic
  /-- A named class, interface, enum or annotation type. -/
  | namedClass
  /-- The body of an anonymous class, below a `new` expression. -/
  | anonymousClass
  | typeParameter
  | method
  | field
  | enumConstant
  | parameter
  /-- The declared type of a field, variable or parameter. -/
  | typeElement
  /-- A code reference, as in extends lists and imports. -/
  | reference
  | codeBlock
  /-- A statement that declares local variables. -/
  | declarationStatement
  | localVariable
  | expressionStatement
  | ifStatement
  | forStatement
  | whileStatement
  | doWhileStatement
  | returnStatement
  | throwStatement
  | breakStatement
  | continueStatement
  | synchronizedStatement
  | blockStatement
  | binaryExpression
  | methodCall
  | newExpression
  | referenceExpression
  | literal
  | parenthesizedExpression
  | superExpression
  | comment
  | fragment
  deriving DecidableEq, Repr, Inhabited

namespace NodeKind

def all : List NodeKind :=
  [.file, .importList, .importStatic, .namedClass, .anonymousClass, .typeParameter,
    .method, .field, .enumConstant, .parameter, .typeElement, .reference, .codeBlock,
    .declarationStatement, .localVariable, .expressionStatement, .ifStatement,
    .forStatement, .whileStatement, .doWhileStatement, .returnStatement, .throwStatement,
    .breakStatement, .continueStatement, .synchronizedStatement, .blockStatement,
    .binaryExpression, .methodCall, .newExpression, .referenceExpression, .literal,
    .parenthesizedExpression, .superExpression, .comment, .fragment]

def name : NodeKind → String
  | .file => "file"
  | .importList => "import_list"
  | .importStatic => "import_static"
  | .namedClass => "class"
  | .anonymousClass => "anonymous_class"
  | .typeParameter => "type_parameter"
  | .method => "method"
  | .field => "field"
  | .enumConstant => "enum_constant"
  | .parameter => "parameter"
  | .typeElement => "type_element"
  | .reference => "reference"
  | .codeBlock => "code_block"
  | .declarationStatement => "declaration_statement"
  | .localVariable => "local_variable"
  | .expressionStatement => "expression_statement"
  | .ifStatement => "if_statement"
  | .forStatement => "for_statement"
  | .whileStatement => "while_statement"
  | .doWhileStatement => "do_while_statement"
  | .returnStatement => "return_statement"
  | .throwStatement => "throw_statement"
  | .breakStatement => "break_statement"
  | .continueStatement => "continue_statement"
  | .synchronizedStatement => "synchronized_statement"
  | .blockStatement => "block_statement"
  | .binaryExpression => "binary_expression"
  | .methodCall => "method_call"
  | .newExpression => "new_expression"
  | .referenceExpression => "reference_expression"
  | .literal => "literal"
  | .parenthesizedExpression => "parenthesized_expression"
  | .superExpression => "super_expression"
  | .comment => "comment"
  | .fragment => "fragment"

def ofName? (name : String) : Option NodeKind :=
  all.find? (·.name == name)

/-- The name of the kind in capitals, as in a printed node. -/
def title (kind : NodeKind) : String :=
  Text.joinCapitalized kind.name

def isClass : NodeKind → Bool
  | .namedClass | .anonymousClass => true
  | _ => false

/-- The kinds of statements. A code block is not one: it is the body of one. -/
def isStatement : NodeKind → Bool
  | .declarationStatement | .expressionStatement | .ifStatement | .forStatement
  | .whileStatement | .doWhileStatement | .returnStatement | .throwStatement | .breakStatement
  | .continueStatement | .synchronizedStatement | .blockStatement => true
  | _ => false

def isExpression : NodeKind → Bool
  | .binaryExpression | .methodCall | .newExpression | .referenceExpression | .literal
  | .parenthesizedExpression | .superExpression => true
  | _ => false

def isLoop : NodeKind → Bool
  | .forStatement | .whileStatement | .doWhileStatement => true
  | _ => false

def keyword? : NodeKind → Option String
  | .ifStatement => some "if"
  | .forStatement => some "for"
  | .whileStatement => some "while"
  | .doWhileStatement => some "do"
  | .returnStatement => some "return"
  | .throwStatement => some "throw"
  | .breakStatement => some "break"
  | .continueStatement => some "continue"
  | .synchronizedStatement => some "synchronized"
  | .superExpression => some "super"
  | _ => none

theorem ofName?_name (kind : NodeKind) : ofName? kind.name = some kind := by
  cases kind <;> decide

end NodeKind

end TreeLint
