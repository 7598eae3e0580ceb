import TreeLint.Inspection.Encoding
import TreeLint.Inspection.Probe
import TreeLint.Inspection.ShortName
import TreeLint.Main
import TreeLint.Outline.Builder
import TreeLint.Restorable
import TreeLint.Settings.Encoding
import TreeLint.Timing.Encoding
import TreeLint.Traversal.Recorder
import TreeLint.Proofs.Tree.Links
import TreeLint.Proofs.Tree.Subtrees
import TreeLint.Proofs.Tree.Numbering
import TreeLint.Proofs.Tree.EditSteps
import TreeLint.Proofs.Tree.Preservation
import TreeLint.Proofs.Tree.EditHistory
import TreeLint.Proofs.Tree.Frames
import TreeLint.Proofs.Tree.Contents
import TreeLint.Proofs.Tree.Code
import TreeLint.Proofs.Tree.Outcomes
import TreeLint.Proofs.Tree.Counterparts
import TreeLint.Proofs.Tree.Shapes
import TreeLint.Proofs.Fix.Moves
import TreeLint.Proofs.Fix.Reachability
import TreeLint.Proofs.Fix.Atomicity
import TreeLint.Proofs.Flow.Execution
import TreeLint.Proofs.Flow.Jumps
import TreeLint.Proofs.Flow.Completion
import TreeLint.Proofs.Rule.Reports
import TreeLint.Proofs.Flow.Soundness
import TreeLint.Proofs.Rule.Anchors
import TreeLint.Proofs.Rule.Problems
import TreeLint.Proofs.Rule.Coverage
import TreeLint.Proofs.Fix.Tidying
import TreeLint.Proofs.Fix.Removals
import TreeLint.Proofs.Fix.Declarations
import TreeLint.Proofs.Fix.Variables
import TreeLint.Proofs.Fix.Replacements
import TreeLint.Proofs.Fix.InnerClasses
import TreeLint.Proofs.Fix.Measure
import TreeLint.Proofs.Fix.Progress
import TreeLint.Proofs.Fix.Places
import TreeLint.Proofs.Rule.ClassProblems
import TreeLint.Proofs.Rule.Remedies
import TreeLint.Proofs.Suite.Passes
import TreeLint.Proofs.Suite.Fixing
import TreeLint.Proofs.Json.RoundTrip
import TreeLint.Proofs.Document.Fields
import TreeLint.Proofs.Document.Values
import TreeLint.Proofs.Document.RoundTrip
import TreeLint.Proofs.Tree.Documents
import TreeLint.Proofs.Tree.Attachment
import TreeLint.Proofs.Tree.Loading
import TreeLint.Proofs.Rule.Cancellation
import TreeLint.Proofs.Suite.Cancellation
import TreeLint.Proofs.Rule.ReportOrder
import TreeLint.Proofs.Suite.FixOrder
import TreeLint.Proofs.Tree.Pruning
import TreeLint.Proofs.Fix.CutOffs
import TreeLint.Proofs.Suite.FixCounts
import TreeLint.Proofs.Rule.Options
import TreeLint.Proofs.Tree.Agreement
import TreeLint.Proofs.Fix.Repetition
import TreeLint.Proofs.Fix.Hoisting
import TreeLint.Proofs.Tree.Texts
import TreeLint.Proofs.Fix.Texts
import TreeLint.Proofs.Tree.Renumbering
import TreeLint.Proofs.Tree.Reloading
import TreeLint.Proofs.Rule.Reloading
import TreeLint.Proofs.Fix.Labels
import TreeLint.Proofs.Tree.LabelIndex
import TreeLint.Proofs.Suite.Reloading
import TreeLint.Proofs.Timing.Summary
import TreeLint.Proofs.Timing.Histories
import TreeLint.Proofs.Suite.Reconfiguration
import TreeLint.Proofs.Tree.DocumentOrder
import TreeLint.Proofs.Traversal.Preorder
import TreeLint.Proofs.Workspace.Writing
import TreeLint.Proofs.Command.Fixing
import TreeLint.Proofs.Document.Nesting
import TreeLint.Proofs.Tree.Levels
import TreeLint.Proofs.Fix.Depths
import TreeLint.Proofs.Rule.Independence
import TreeLint.Proofs.Suite.Readability
import TreeLint.Proofs.Text.Positions
import TreeLint.Proofs.Suite.Safety
import TreeLint.Proofs.Tree.Nearest
import TreeLint.Proofs.Rule.Diagnostics
import TreeLint.Proofs.Fix.Guards
import TreeLint.Proofs.Fix.Enclosures
import TreeLint.Proofs.Shape.BitwiseValues
import TreeLint.Proofs.Expression.Tokens
import TreeLint.Proofs.Expression.Reading
import TreeLint.Proofs.Rule.Complements
import TreeLint.Proofs.Text.Substitution
import TreeLint.Proofs.Template.Placeholders
import TreeLint.Proofs.Expression.Parts
import TreeLint.Proofs.Rule.DroppedOperands
import TreeLint.Proofs.Fix.NamedClasses
import TreeLint.Proofs.Traversal.Limits
import TreeLint.Proofs.Tree.Locations
import TreeLint.Proofs.Fix.Splitting
import TreeLint.Proofs.Rule.Messages
import TreeLint.Proofs.Flow.Throws
import TreeLint.Proofs.Flow.Returns
import TreeLint.Proofs.Rule.Locks
import TreeLint.Proofs.Rule.Cloning
import TreeLint.Proofs.Fix.FreshNames
import TreeLint.Proofs.Text.Identifiers
import TreeLint.Proofs.Fix.LegalNames
import TreeLint.Proofs.Fix.NestedNames
import TreeLint.Proofs.Expression.Calls
import TreeLint.Proofs.Rule.FlippedCalls
import TreeLint.Proofs.Tree.Inverses
import TreeLint.Proofs.Document.Rearrangement
import TreeLint.Proofs.Settings.Defaults
import TreeLint.Proofs.Rule.ExposedClasses
import TreeLint.Proofs.Fix.NumberedNames
import TreeLint.Proofs.Restorable.Unwinding
import TreeLint.Proofs.Rule.GuardedWalks
