import TreeLint.Subtree.Basic
import TreeLint.Text.Category

/-!
The text of a node: what the host gave, or what can be rebuilt from the children.
-/

namespace TreeLint

namespace Subtree

def valueAt? (children : List (Subtree × β)) (role : Role) : Option β :=
  (children.find? (·.1.role == role)).map (·.2)

/-- The text before a name that is reached through a qualifier. -/
def qualify (qualifier : Option String) (member : String) : String :=
  qualifier.elim member (· ++ "." ++ member)

/-- The text of a node without text from the host, from the texts of its children. -/
def rebuild (node : Subtree) (children : List (Subtree × String)) : String :=
  let name := node.name?.getD ""
  match node.kind with
  | .binaryExpression =>
      let symbol := node.facts.operator.elim "?" Operator.symbol
      let operand role := (valueAt? children role).getD ""
      operand .lhs ++ " " ++ symbol ++ " " ++ operand .rhs
  | .methodCall =>
      let arguments := children.filter (·.1.role == .argument)
      qualify (valueAt? children .qualifier)
        (name ++ "(" ++ ", ".intercalate (arguments.map (·.2)) ++ ")")
  | .referenceExpression => qualify (valueAt? children .qualifier) name
  | .newExpression => "new " ++ name ++ "()"
  | .parenthesizedExpression => "(" ++ (children.head?.elim "" (·.2)) ++ ")"
  | kind => (node.name?.or kind.keyword?).getD ""

def sourceText (node : Subtree) : String :=
  node.recurse fun node children => node.text?.getD (rebuild node children)

/-- The text that stands for a node in messages: its name, its text, its keyword, or else its
source text.
-/
def shownText (node : Subtree) : String :=
  ((node.name?.or node.text?).or node.kind.keyword?).getD node.sourceText

end Subtree

/-- A node as it is printed for a reader of logs. -/
def Content.logText (content : Content) (id : NodeId) : String :=
  "NodeRef \x7b id: NodeId(" ++ toString id ++ "), kind: " ++ content.kind.title ++ ", name: "
    ++ content.name.elim "None" (fun name => "Some(" ++ Text.quoted name ++ ")") ++ " \x7d"

end TreeLint
