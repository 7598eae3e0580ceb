/-!
The places that a child can have inside its parent.
-/

namespace TreeLint

/-- The place of a node among the children of its parent. -/
inductive Role where
  | other
  | extended
  | implemented
  | baseClass
  /-- The receiver of a call or reference. -/
  | qualifier
  | argument
  | lhs
  | rhs
  | condition
  | init
  | update
  | body
  | otherwise
  | initializer
  deriving DecidableEq, Repr, Inhabited

namespace Role

def all : List Role :=
  [.other, .extended, .implemented, .baseClass, .qualifier, .argument, .lhs, .rhs, .condition,
    .init, .update, .body, .otherwise, .initializer]

def name : Role → String
  | .other => "other"
  | .extended => "extends"
  | .implemented => "implements"
  | .baseClass => "base_class"
  | .qualifier => "qualifier"
  | .argument => "argument"
  | .lhs => "lhs"
  | .rhs => "rhs"
  | .condition => "condition"
  | .init => "init"
  | .update => "update"
  | .body => "body"
  | .otherwise => "else"
  | .initializer => "initializer"

def ofName? (name : String) : Option Role :=
  all.find? (·.name == name)

theorem ofName?_name (role : Role) : ofName? role.name = some role := by
  cases role <;> decide

end Role

end TreeLint
