/-
**Checks of a single unit.**

Besides its syntax a unit is checked for public types in a file of another name, and for fields and
methods that are declared twice in a type.

Main definitions:

* `Outline.misplacedTypes` — public types in a file of another name;
* `Outline.repeatedMembers` — members that are declared twice;
* `Outline.memberProblems` — both, in the order in which they are reported.
-/

import JavaOutline.Outline
import JavaOutline.UnitReport

set_option autoImplicit false

namespace JavaOutline

/-- The problem of a public type in a file of another name. -/
def misplacedType (t : TypeDecl) : Problem where
  code := .publicTypeFileMismatch
  message := "The public type " ++ t.name ++ " must be defined in its own file"
  span := some t.span

/-- The problem of a field that is declared twice. -/
def repeatedField (typeName : String) (decl : VariableDecl) : Problem where
  code := .duplicateMember
  message := "Duplicate field " ++ typeName ++ "." ++ decl.name
  span := some decl.span

/-- The problem of a method that is declared twice. -/
def repeatedMethod (typeName : String) (decl : MethodDecl) : Problem where
  code := .duplicateMember
  message := "Duplicate method " ++ decl.signatureKey ++ " in type " ++ typeName
  span := some decl.span

/-- The variables whose names occur before, among the names seen or among earlier variables. -/
def repeatedVariables (seen : List String) : List VariableDecl → List VariableDecl
  | [] => []
  | decl :: decls =>
      if seen.contains decl.name then decl :: repeatedVariables seen decls
      else repeatedVariables (decl.name :: seen) decls

/-- The problems of members that are declared twice, where fields and methods were seen before. -/
def repeatedFrom (typeName : String) (fields methods : List String) : List Member → List Problem
  | [] => []
  | .field decl :: members =>
      (repeatedVariables fields decl.declarators).map (repeatedField typeName) ++
        repeatedFrom typeName (decl.declarators.map VariableDecl.name ++ fields) methods members
  | .method decl :: members =>
      (if methods.contains decl.signatureKey then [repeatedMethod typeName decl] else []) ++
        repeatedFrom typeName fields (decl.signatureKey :: methods) members
  | _ :: members => repeatedFrom typeName fields methods members

namespace Outline

/-- The public types of a unit that are not named like its file. -/
def misplacedTypes (outline : Outline) (stem : String) : List Problem :=
  (outline.types.filter fun t => t.isPublic && t.name != stem).map misplacedType

/-- The members of a unit that are declared twice in their type. -/
def repeatedMembers (outline : Outline) : List Problem :=
  outline.allTypes.flatMap fun t => repeatedFrom t.name [] [] t.members

/-- The problems of a unit in a file whose name has a stem. -/
def memberProblems (outline : Outline) (stem : String) : List Problem :=
  outline.misplacedTypes stem ++ outline.repeatedMembers

end Outline

end JavaOutline
