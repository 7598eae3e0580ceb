import TreeLint.Json.Basic

/-!
The values of TOML documents.
-/

namespace TreeLint.Toml

/-- A floating-point number as it is written: digits with a fraction or an exponent, or one of
the special values.
-/
inductive Number where
  /-- A number whose literal has no underscores and no plus sign in front. -/
  | finite (literal : String)
  | infinite (negative : Bool)
  | nan
  deriving DecidableEq, Repr, Inhabited

/-- A TOML value. The keys of a table differ from each other. -/
inductive Value where
  | string (text : String)
  | integer (value : Int)
  | float (number : Number)
  | boolean (value : Bool)
  | datetime (text : String)
  | array (items : List Value)
  | table (entries : List (String × Value))
  deriving Repr, Inhabited

namespace Value

def text? : Value → Option String
  | .string text => some text
  | _ => none

def integer? : Value → Option Int
  | .integer value => some value
  | _ => none

def boolean? : Value → Option Bool
  | .boolean value => some value
  | _ => none

def table? : Value → Option (List (String × Value))
  | .table entries => some entries
  | _ => none

mutual
/-- The value as JSON. A number that is not finite has no counterpart but null, and a date
becomes an object with a reserved key.
-/
def toJson : Value → Json
  | .string text => .string text
  | .integer value => .integer value
  | .float (.finite literal) => .decimal literal
  | .float _ => .null
  | .boolean value => .bool value
  | .datetime text => .ofMembers [("$__toml_private_datetime", .string text)]
  | .array items => .array (toJsonItems items)
  | .table entries => .object (toJsonEntries entries)

def toJsonItems : List Value → List Json
  | [] => []
  | value :: rest => value.toJson :: toJsonItems rest

def toJsonEntries : List (String × Value) → List (Option String × Json)
  | [] => []
  | (key, value) :: rest => (some key, value.toJson) :: toJsonEntries rest
end

end Value

end TreeLint.Toml
