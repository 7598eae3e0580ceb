import TreeLint.Diagnostic
import TreeLint.Fix.Declaration
import TreeLint.Fix.Expression
import TreeLint.Fix.InnerClass

/-!
Applying fixes: one at a node, that of a diagnostic, and those of a whole report.
-/

namespace TreeLint

def Fix.applyAt (anchor : NodeId) : Fix → Edit Unit
  | .removeModifier modifier => Edit.removeModifier anchor modifier
  | .nameInnerClass => Fix.nameInnerClassAt anchor
  | .splitDeclaration => Fix.splitDeclarationAt anchor
  | .introduceVariable => Fix.introduceVariableAt anchor
  | .simplify => Fix.simplifyAt anchor
  | .removeObjectBound => Fix.removeObjectBoundAt anchor
  | .flipEquals => Fix.flipEqualsAt anchor
  | .rename name => Edit.setName anchor name

def Diagnostic.applyFix (diagnostic : Diagnostic) : Edit Unit :=
  match diagnostic.fix with
  | none => throw .noFix
  | some fix => fix.applyAt diagnostic.anchor

structure FixSummary where
  applied : Nat := 0
  /-- The fixes that failed, because of the tree or of fixes applied before them. -/
  skipped : Nat := 0
  deriving DecidableEq, Repr, Inhabited

namespace FixSummary

/-- Tries the fix of one diagnostic. A diagnostic without a fix does not count. -/
def step (state : FixSummary × Tree) (diagnostic : Diagnostic) : FixSummary × Tree :=
  let (summary, tree) := state
  if diagnostic.fix.isNone then
    state
  else
    match diagnostic.applyFix.apply tree with
    | (.ok (), tree) => ({ summary with applied := summary.applied + 1 }, tree)
    | (.error _, tree) => ({ summary with skipped := summary.skipped + 1 }, tree)

end FixSummary

/-- Tries the fixes of a report, the last diagnostic first. -/
def applyAll (diagnostics : List Diagnostic) (tree : Tree) : FixSummary × Tree :=
  diagnostics.reverse.foldl FixSummary.step ({ }, tree)

end TreeLint
