/-!
The modifiers of declarations.
-/

namespace TreeLint

inductive Modifier where
  | publicAccess
  | protectedAccess
  | privateAccess
  | static
  | final
  | abstract
  | synchronized
  | native
  | transient
  | volatile
  | strictfp
  | default
  deriving DecidableEq, Repr, Inhabited

namespace Modifier

def all : List Modifier :=
  [.publicAccess, .protectedAccess, .privateAccess, .static, .final, .abstract, .synchronized,
    .native, .transient, .volatile, .strictfp, .default]

/-- The keyword of the modifier, which is also its name in documents. -/
def name : Modifier → String
  | .publicAccess => "public"
  | .protectedAccess => "protected"
  | .privateAccess => "private"
  | .static => "static"
  | .final => "final"
  | .abstract => "abstract"
  | .synchronized => "synchronized"
  | .native => "native"
  | .transient => "transient"
  | .volatile => "volatile"
  | .strictfp => "strictfp"
  | .default => "default"

def ofName? (name : String) : Option Modifier :=
  all.find? (·.name == name)

theorem ofName?_name (modifier : Modifier) : ofName? modifier.name = some modifier := by
  cases modifier <;> decide

end Modifier

end TreeLint
