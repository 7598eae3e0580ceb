/-!
A value that is changed for a while. Who enters a new value holds a guard with the value of
before, and puts that back on leaving.
-/

namespace TreeLint

/-- What is needed to put a value back. -/
structure Guard (α : Type) where
  previous : α
  deriving DecidableEq, Repr, Inhabited

/-- A value that can be put back, with the guards that are held under names. No two are held under
the same name.
-/
structure Restorable (α : Type) where
  value : α
  guards : List (String × Guard α) := []
  deriving DecidableEq, Repr, Inhabited

namespace Restorable

def set (cell : Restorable α) (value : α) : Restorable α :=
  { cell with value }

def guard (cell : Restorable α) : Guard α :=
  { previous := cell.value }

def restore (cell : Restorable α) (guard : Guard α) : Restorable α :=
  cell.set guard.previous

/-- Gives up the guard under a name, if there is one, and with it the value entered. -/
def leave (cell : Restorable α) (name : String) : Restorable α :=
  match cell.guards.lookup name with
  | none => cell
  | some guard =>
      { cell.restore guard with guards := cell.guards.filter (·.1 != name) }

/-- Enters a value and holds the guard under a name. A guard held there before is given up after
the new value is entered.
-/
def enter (cell : Restorable α) (name : String) (value : α) : Restorable α :=
  let guard := cell.guard
  let left := (cell.set value).leave name
  { left with guards := (name, guard) :: left.guards }

/-- Enters a value and gives it up when the work inside breaks off. -/
def attempt (cell : Restorable α) (value : α) : Restorable α :=
  (cell.set value).restore cell.guard

end Restorable

end TreeLint
