/-!
The short name of an inspection, taken from the path of its type.
-/

namespace TreeLint

/-- The text behind the last double colon. -/
def lastPathPart (path : List Char) : List Char :=
  go path path
where
  /-- The text behind the last double colon of the rest, or else what was found before. -/
  go (found : List Char) : List Char → List Char
    | [] => found
    | ':' :: ':' :: rest => go rest (':' :: rest)
    | _ :: rest => go found rest

/-- The word that type names end in and short names leave out. -/
def inspectionWord : List Char :=
  "Inspection".toList

/-- The name without the last word, unless nothing else is there. -/
def dropInspectionWord (name : List Char) : List Char :=
  if inspectionWord.isSuffixOf name && name.length != inspectionWord.length then
    name.take (name.length - inspectionWord.length)
  else
    name

/-- The short name of a type: the last part of its path, without parameters and without the word
that all such types end in.
-/
def shortNameOf (typePath : String) : String :=
  String.ofList (dropInspectionWord (lastPathPart (typePath.toList.takeWhile (· != '<'))))

end TreeLint
