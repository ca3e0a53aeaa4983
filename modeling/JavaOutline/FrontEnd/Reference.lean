/-
**What a unit refers to.**

A unit refers to other types by its imports and by the supertypes of its types.  A reference is
resolved by any of several qualified names, and an import on demand also by a package.

Main definitions:

* `Reference` — a reference;
* `ImportDecl.reference`, `Outline.supertypeReferences` — the two sorts of references;
* `Outline.references` — all references of a unit, imports first.
-/

import JavaOutline.Text.Blank
import JavaOutline.TypeIndex

set_option autoImplicit false

namespace JavaOutline

/-- Something that a unit refers to by name. -/
structure Reference where
  /-- The name as it is written. -/
  name : String
  /-- The qualified names that resolve it, the most specific one first. -/
  candidates : List String
  /-- The package that resolves it, for an import on demand. -/
  package : Option String := none
  span : Span
  isImport : Bool
deriving DecidableEq, Repr, Inhabited

/-! ### Imports -/

/-- What an import refers to.  A single static import refers to the type around the member. -/
def ImportDecl.reference (i : ImportDecl) : Reference where
  name := i.name
  candidates := if i.isStatic && !i.onDemand then [i.qualifier] else [i.name]
  package := if i.onDemand && !i.isStatic then some i.name else none
  span := i.span
  isImport := true

/-! ### Supertypes -/

/-- The characters of a written type outside of type arguments, without blanks and brackets. -/
def withoutTypeArguments (depth : Nat) : List Char → List Char
  | [] => []
  | c :: text =>
      if c = '<' then withoutTypeArguments (depth + 1) text
      else if c = '>' then withoutTypeArguments (depth - 1) text
      else if depth = 0 && !Text.isBlank c && c != '[' && c != ']' then
        c :: withoutTypeArguments depth text
      else withoutTypeArguments depth text

/-- The name of a written type. -/
def typeNameOf (written : String) : String :=
  String.ofList (withoutTypeArguments 0 written.toList)

namespace Outline

/-- The imports of single types. -/
def singleImports (outline : Outline) : List ImportDecl :=
  outline.imports.filter fun i => !i.onDemand && !i.isStatic

/-- The names of the imports of types on demand. -/
def onDemandNames (outline : Outline) : List String :=
  (outline.imports.filter fun i => i.onDemand && !i.isStatic).map ImportDecl.name

/-- The qualified names that the name of a supertype may stand for.  A dotted name is tried as it
is, in the package, and below the single import of its first part; a simple name in the package,
as a single import, and below the imports on demand. -/
def supertypeCandidates (outline : Outline) (name : String) : List String :=
  let imported (simple : String) : List String :=
    (outline.singleImports.filter (·.simpleName == some simple)).map ImportDecl.name
  match nameParts name with
  | head :: _ :: _ =>
      let below := String.ofList (name.toList.drop head.toList.length)
      [name, qualify outline.packageName name] ++ ((imported head).take 1).map (· ++ below)
  | _ =>
      qualify outline.packageName name ::
        (imported name ++ outline.onDemandNames.map (· ++ "." ++ name))

/-- The names of the supertypes of a type. -/
def supertypeNames (t : TypeDecl) : List String :=
  (t.supertypes.map typeNameOf).filter (!·.isEmpty)

/-- What the types of a unit refer to as supertypes, every name once. -/
def supertypeReferences (outline : Outline) : List Reference :=
  let named := outline.allTypes.flatMap fun t => (supertypeNames t).map (·, t.span)
  (named.eraseDupsBy fun a b => a.1 == b.1).map fun (name, span) =>
    { name, candidates := outline.supertypeCandidates name, span, isImport := false }

/-- Everything that a unit refers to, imports first. -/
def references (outline : Outline) : List Reference :=
  outline.imports.map ImportDecl.reference ++ outline.supertypeReferences

end Outline

end JavaOutline
