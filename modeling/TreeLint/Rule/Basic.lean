import TreeLint.Rule.Classes
import TreeLint.Rule.Expressions
import TreeLint.Rule.Files
import TreeLint.Rule.Statements
import TreeLint.Rule.Threads

/-!
The built-in rules with their settings.
-/

namespace TreeLint

inductive Rule where
  | infiniteLoopStatement
  | finalMethodInFinalClass
  | anonymousClassMethodCount (limit : Threshold)
  | multipleReturnPointsPerMethod (limit : Threshold)
  | pointlessBitwiseExpression
  | typeParameterExtendsObject
  /-- Leaves out calls below fields if `ignoreFields` says so. -/
  | chainedMethodCall (ignoreFields : Bool)
  | todoComment (pattern : Pattern)
  | staticImport
  | multipleDeclaration
  | literalAsArgToStringEquals
  | threadStopSuspendResume
  | publicFieldAccessedInSynchronizedContext
  | extendsAnnotationType
  | serializableClassInSecureContext
  | cloneCallsSuperClone
  deriving Repr, Inhabited

namespace Rule

/-- Every rule with its default settings, in the order in which they run. -/
def all : List Rule :=
  [.infiniteLoopStatement, .finalMethodInFinalClass, .anonymousClassMethodCount (.ofDefault 1),
    .multipleReturnPointsPerMethod (.ofDefault 1), .pointlessBitwiseExpression,
    .typeParameterExtendsObject, .chainedMethodCall true, .todoComment Checker.todoPattern,
    .staticImport, .multipleDeclaration, .literalAsArgToStringEquals, .threadStopSuspendResume,
    .publicFieldAccessedInSynchronizedContext, .extendsAnnotationType,
    .serializableClassInSecureContext, .cloneCallsSuperClone]

def checker : Rule → Checker
  | .infiniteLoopStatement => .infiniteLoopStatement
  | .finalMethodInFinalClass => .finalMethodInFinalClass
  | .anonymousClassMethodCount limit => .anonymousClassMethodCount limit
  | .multipleReturnPointsPerMethod limit => .multipleReturnPointsPerMethod limit
  | .pointlessBitwiseExpression => .pointlessBitwiseExpression
  | .typeParameterExtendsObject => .typeParameterExtendsObject
  | .chainedMethodCall ignoreFields => .chainedMethodCall ignoreFields
  | .todoComment pattern => .todoComment pattern
  | .staticImport => .staticImport
  | .multipleDeclaration => .multipleDeclaration
  | .literalAsArgToStringEquals => .literalAsArgToStringEquals
  | .threadStopSuspendResume => .threadStopSuspendResume
  | .publicFieldAccessedInSynchronizedContext => .publicFieldAccessedInSynchronizedContext
  | .extendsAnnotationType => .extendsAnnotationType
  | .serializableClassInSecureContext => .serializableClassInSecureContext
  | .cloneCallsSuperClone => .cloneCallsSuperClone

/-- What is known of the rule without running it. -/
def profile (rule : Rule) : Profile :=
  rule.checker.profile

/-- The rule with the options of a section. Limits go by the option `limit`. -/
def configure (part : Section) : Rule → Rule
  | .anonymousClassMethodCount limit =>
      .anonymousClassMethodCount (limit.configure (part.option? "limit"))
  | .multipleReturnPointsPerMethod limit =>
      .multipleReturnPointsPerMethod (limit.configure (part.option? "limit"))
  | .chainedMethodCall _ =>
      .chainedMethodCall (part.boolean "ignore_field_initializations" true)
  | .todoComment _ =>
      .todoComment (Checker.commentPattern (part.text "pattern" Checker.todoSource))
  | rule => rule

instance : Inspection Rule where
  profile := profile
  configure rule part := rule.configure part
  pass rule := rule.checker.run

def find? (name : String) : Option Rule :=
  all.find? (·.profile.answersTo name)

/-! ## Settings from code -/

def withLimit (limit : Nat) : Rule → Rule
  | .anonymousClassMethodCount threshold => .anonymousClassMethodCount (threshold.set limit)
  | .multipleReturnPointsPerMethod threshold =>
      .multipleReturnPointsPerMethod (threshold.set limit)
  | rule => rule

def withPattern (source : String) : Rule → Rule
  | .todoComment _ => .todoComment (Checker.commentPattern source)
  | rule => rule

/-- The rule with calls below fields left out or not, if it looks at calls. -/
def ignoringFields (ignoreFields : Bool) : Rule → Rule
  | .chainedMethodCall _ => .chainedMethodCall ignoreFields
  | rule => rule

end Rule

end TreeLint
