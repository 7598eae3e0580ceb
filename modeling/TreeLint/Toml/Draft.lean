import TreeLint.Toml.Basic

/-!
Tables while they are read. A table remembers how it came about, since that decides what may be
added to it later.
-/

namespace TreeLint.Toml

/-- How a table came about. -/
inductive Origin where
  /-- A table with a header of its own. -/
  | header
  /-- A table that the header of a table inside it asks for. -/
  | implied
  /-- A table that a key with dots asks for. -/
  | dotted
  deriving DecidableEq, Repr, Inhabited

/-- A value that may still grow. -/
inductive Draft where
  /-- A value that does not grow, such as a table in braces. -/
  | value (value : Value)
  | table (origin : Origin) (entries : List (String × Draft))
  | tables (items : List Draft)
  deriving Repr, Inhabited

namespace Draft

def empty (origin : Origin) : Draft :=
  .table origin []

mutual
/-- The value, once nothing is added any more. -/
def finish : Draft → Value
  | .value final => final
  | .table _ entries => .table (finishEntries entries)
  | .tables items => .array (finishItems items)

/-- The entries of a table, once nothing is added any more. -/
def finishEntries : List (String × Draft) → List (String × Value)
  | [] => []
  | (key, draft) :: rest => (key, draft.finish) :: finishEntries rest

/-- The tables of an array, once nothing is added any more. -/
def finishItems : List Draft → List Value
  | [] => []
  | draft :: rest => draft.finish :: finishItems rest
end

/-- Changes the entry of a key, which is put in at the end if it is missing. -/
def alter (key : String) (f : Option Draft → Option Draft)
    : List (String × Draft) → Option (List (String × Draft))
  | [] => do return [(key, ← f none)]
  | (other, draft) :: rest =>
      if other = key then do
        return (key, ← f (some draft)) :: rest
      else do
        return (other, draft) :: (← alter key f rest)

/-- Changes the entries of a table, or of the last table of an array. -/
def inside (f : Origin → List (String × Draft) → Option (List (String × Draft)))
    : Draft → Option Draft
  | .value _ => none
  | .table origin entries => do return .table origin (← f origin entries)
  | .tables items =>
      match items.getLast? with
      | some (.table origin entries) => do
          return .tables (items.dropLast ++ [.table origin (← f origin entries)])
      | _ => none

/-- Changes the entries of the table that a path of headers leads to. Tables that are missing on
the way are put in.
-/
def descend (f : List (String × Draft) → Option (List (String × Draft)))
    : List String → List (String × Draft) → Option (List (String × Draft))
  | [], entries => f entries
  | key :: path, entries =>
      alter key (fun draft => (draft.getD (empty .implied)).inside fun _ => descend f path) entries

/-- The table is open for keys with dots: it is no table with a header of its own. An array of
tables is open on the way, since only its last table grows.
-/
def isOpen : Draft → Bool
  | .table .header _ => false
  | _ => true

/-- Puts in a value under a key with dots. A key has one value, and a key with dots adds only to
tables that keys with dots have made.
-/
def insert (final : Value) : List String → List (String × Draft) → Option (List (String × Draft))
  | [], _ => none
  | [key], entries => alter key (fun | none => some (.value final) | some _ => none) entries
  | key :: path, entries =>
      alter key
        (fun draft =>
          let draft := draft.getD (empty .dotted)
          if draft.isOpen then
            draft.inside fun origin entries =>
              if path.length = 1 ∧ origin ≠ .dotted then none else insert final path entries
          else
            none)
        entries

/-- Puts in values under their keys. -/
def insertAll (pairs : List (List String × Value)) (entries : List (String × Draft))
    : Option (List (String × Draft)) :=
  pairs.foldlM (fun entries (key, final) => insert final key entries) entries

/-- The table with a header of its own, made of what stood in its place before. -/
def openTable (pairs : List (List String × Value)) : Option Draft → Option Draft
  | none => do return .table .header (← insertAll pairs [])
  | some (.table .implied entries) => do return .table .header (← insertAll pairs entries)
  | some _ => none

/-- The array of tables with one more, made of what stood in its place before. -/
def appendTable (pairs : List (List String × Value)) : Option Draft → Option Draft
  | none => do return .tables [.table .header (← insertAll pairs [])]
  | some (.tables items) => do
      return .tables (items ++ [.table .header (← insertAll pairs [])])
  | some _ => none

end Draft

end TreeLint.Toml
