import TreeLint.Rule.Checker
import TreeLint.Shape.Method
import TreeLint.Tree.Resolution

/-!
Rules about classes and how their members and supertypes are declared.
-/

namespace TreeLint.Checker

/-- Finds methods that are final although their class is. -/
def finalMethodInFinalClass : Checker where
  profile :=
    { shortName := "FinalMethodInFinalClass"
      id := "FinalMethodInFinalClass"
      displayName := "'final' method in 'final' class"
      group := "Class structure"
      scopes := [.methodScope]
      fix := some (.removeModifier .final)
      offersFix := true }
  message _ _ := "Method '#ref()' declared 'final' in 'final' class #loc"
  reaction? tree _
    | .ofKind .method =>
        some <| .stop <| Subtree.selfIf fun method =>
          method.hasModifier .final
            && (tree.parentContent? method.id).any fun parent =>
              parent.kind == .namedClass && parent.hasModifier .final
    | _ => none

/-- Finds anonymous classes with more methods than a limit, and reports their base. -/
def anonymousClassMethodCount (limit : Threshold) : Checker where
  profile :=
    { shortName := "AnonymousClassMethodCount"
      id := "AnonymousInnerClassWithTooManyMethods"
      displayName := "Anonymous inner class with too many methods"
      group := "Class metrics"
      scopes := [.classScope]
      fix := some .nameInnerClass
      offersFix := true
      fixOnlyInteractive := true
      metric := some { label := "Method count limit:", threshold := limit } }
  message tree base :=
    let count := (tree.parentSubtree? base.id).elim 0 (·.ordinaryMethods.length)
    "Anonymous inner class with too many methods (method count = " ++ toString count ++ ") #loc"
  reaction? _ _
    | .ofKind .namedClass => some .skip
    | .ofKind .anonymousClass =>
        some <| .stop fun node =>
          if limit.isExceededBy node.ordinaryMethods.length then
            (node.childWithRole? .baseClass).toList
          else
            []
    | _ => none

/-- Finds type parameters that are said to extend the topmost class. -/
def typeParameterExtendsObject : Checker where
  profile :=
    { shortName := "TypeParameterExtendsObject"
      id := "TypeParameterExplicitlyExtendsObject"
      displayName := "Type parameter explicitly extends java.lang.Object"
      group := "Verbose or redundant code constructs"
      enabledByDefault := true
      scopes := [.classScope]
      fix := some .removeObjectBound
      offersFix := true }
  message _ _ := "Type parameter '#ref' explicitly extends java.lang.Object #loc"
  reaction? _ scope
    | .ofKind .namedClass => some (.walkRoot scope)
    | .ofKind .typeParameter =>
        some (.walk (Subtree.selfIf fun parameter => !parameter.objectBounds.isEmpty))
    | _ => none

/-- The first language level with annotation types. -/
def annotationLevel : UInt32 := 5

/-- Finds supertypes of classes that are annotation types. -/
def extendsAnnotationType : Checker where
  profile :=
    { shortName := "ExtendsAnnotation"
      id := "ClassExplicitlyAnnotation"
      displayName := "Class extends annotation interface"
      group := "Class structure"
      enabledByDefault := true
      scopes := [.classScope] }
  message tree reference :=
    "Class "
      ++ (((tree.parentContent? reference.id).bind (·.name)).getD "<anonymous>")
      ++ " explicitly extends annotation interface '#ref' #loc"
  reaction? tree scope
    | .ofKind .namedClass =>
        some <| .stop fun node =>
          if node.id = scope.root && annotationLevel ≤ tree.languageLevel
              && node.facts.classKind != .annotationType then
            node.children.filter fun child =>
              (child.role == .extended || child.role == .implemented)
                && (tree.resolve? child.content).any (·.isAnnotationType)
          else
            []
    | _ => none

def serializableClassInSecureContext : Checker where
  profile :=
    { shortName := "SerializableClassInSecureContext"
      id := "SerializableClassInSecureContext"
      displayName := "Serializable class in secure context"
      group := "Security issues"
      scopes := [.classScope] }
  message _ _ := "Class #ref may be serialized, compromising security #loc"
  reaction? _ scope
    | .ofKind .namedClass =>
        some <| .stop fun node =>
          if node.id = scope.root && node.isSerializable then
            if node.kind = .anonymousClass then
              [(node.childWithRole? .baseClass).getD node]
            else
              [node]
          else
            []
    | _ => none

/-- Finds methods `clone()` that leave out the call of the one above. -/
def cloneCallsSuperClone : Checker where
  profile :=
    { shortName := "CloneCallsSuperClone"
      id := "CloneDoesntCallSuperClone"
      displayName := "'clone()' doesn't call 'super.clone()'"
      group := "Cloning issues"
      enabledByDefault := true
      scopes := [.methodScope] }
  message _ _ := "#ref() doesn't call super.clone()"
  reaction? tree _
    | .ofKind .method =>
        some <| .stop <| Subtree.selfIf fun method =>
          method.isCloneMethod (tree.parentContent? method.id) && !method.callsSuperClone
    | _ => none

end TreeLint.Checker
