/-!
JSON values as they are written: members keep their order and may repeat a key, and an integer
is told apart from a number with a fraction or an exponent.
-/

namespace TreeLint

/-- A JSON value. A string whose escapes name half of a surrogate pair is well-formed and denotes
no text: it is `unpaired`, and as a key it is `none`.
-/
inductive Json where
  | null
  | bool (value : Bool)
  | integer (value : Int)
  /-- A number with a fraction or an exponent, or minus zero, as it is written. -/
  | decimal (literal : String)
  | string (text : String)
  | unpaired
  | array (items : List Json)
  | object (members : List (Option String × Json))
  deriving Repr, Inhabited

namespace Json

mutual
/-- The number of arrays and objects around the innermost value. -/
def depth : Json → Nat
  | .array items => depthItems items + 1
  | .object members => depthMembers members + 1
  | _ => 0

def depthItems : List Json → Nat
  | [] => 0
  | item :: rest => max item.depth (depthItems rest)

/-- The greatest depth among the values of some members. -/
def depthMembers : List (Option String × Json) → Nat
  | [] => 0
  | (_, value) :: rest => max value.depth (depthMembers rest)
end

def ofMembers (members : List (String × Json)) : Json :=
  .object (members.map fun (key, value) => (some key, value))

/-- The value of the first member with the key, in an object. -/
def get? (key : String) : Json → Option Json
  | .object members => (members.find? (·.1 == some key)).map (·.2)
  | _ => none

end Json

end TreeLint
