import TreeLint.Traversal.Visitor

/-!
A visitor that writes down which callback was told what to do at which node. It may leave out
what is below nodes of some kinds, and it may stop after a number of entries.
-/

namespace TreeLint

/-- A callback that was told what to do, and the node it was told at. -/
structure Visit where
  callback : Callback
  node : NodeId
  deriving DecidableEq, Repr, Inhabited

namespace Visit

def text (visit : Visit) : String :=
  visit.callback.name ++ ":#" ++ toString visit.node

end Visit

structure Recorder where
  callbacks : List Callback
  /-- The kinds of nodes whose children are not visited. -/
  pruned : List NodeKind := []

namespace Recorder

/-- The entries so far, and how many more are wanted, if there is a limit. -/
structure Progress where
  entries : List Visit := []
  budget : Option Nat := none
  deriving DecidableEq, Repr, Inhabited

def Progress.add (progress : Progress) (entry : Visit) : Progress :=
  { entries := progress.entries ++ [entry], budget := progress.budget.map (· - 1) }

def visitor (recorder : Recorder) : Visitor Progress where
  goesOn progress := (progress.budget != some 0, progress)
  action? callback :=
    if recorder.callbacks.contains callback then
      some fun node walk progress =>
        let progress := progress.add { callback, node := node.id }
        if recorder.pruned.contains node.kind then progress else walk progress
    else
      none

/-- The entries of a traversal that starts at a node. -/
def record (recorder : Recorder) (budget : Option Nat) (node : Subtree) : List Visit :=
  (recorder.visitor.visit node { budget }).entries

/-- Writes down every node, at the callback for any element. -/
def everyElement : List Callback :=
  [.element]

/-- Writes down statements, expressions, classes and fields apart from other elements. -/
def groups : List Callback :=
  [.element, .statement, .expression, .ofKind .namedClass, .ofKind .field]

/-- Writes down a choice of special nodes only. -/
def leaves : List Callback :=
  [.ofKind .anonymousClass, .ofKind .enumConstant, .ofKind .method, .ofKind .returnStatement,
    .ofKind .forStatement, .ofKind .methodCall, .ofKind .literal, .ofKind .comment,
    .ofKind .importStatic, .ofKind .codeBlock]

end Recorder

end TreeLint
