/-
**The types of a batch.**

While units are bound, every type that they declare is entered under its qualified name.  The first
declaration of a name counts.

Main definitions:

* `TypeBinding`, `TypeIndex` — types under their names;
* `TypeIndex.define` — entering a type, unless its name is taken;
* `Outline.declaredTypes` — the types of a unit under their qualified names;
* `qualify`, `isPlatformName` — qualified names, and those that the platform provides.

Main results:

* `TypeIndex.find?_define` — the type entered is found, and others are found as before.
-/

import JavaOutline.Outline
import JavaOutline.Text.Affix

set_option autoImplicit false

namespace JavaOutline

/-! ### Names -/

/-- A simple name in a package; the package without a name adds nothing. -/
def qualify (package : Option String) (simple : String) : String :=
  match package with
  | some name => if name.isEmpty then simple else name ++ "." ++ simple
  | none => simple

/-- The beginnings of the names that the platform provides. -/
def platformPackages : List String :=
  ["java.", "javax.", "jdk.", "sun.", "com.sun.", "org.w3c.", "org.xml."]

/-- Whether the platform provides what is named, so that it need not be found. -/
def isPlatformName (name : String) : Bool := platformPackages.any (Text.beginsWith name)

/-- The name in front of the last point, if there is a point. -/
def enclosingName? (name : String) : Option String :=
  match (nameParts name).dropLast with
  | [] => none
  | parts => some (".".intercalate parts)

/-! ### Declared types -/

mutual

/-- The type under its qualified name, and the types among its members. -/
def TypeDecl.declared (qualified : String) : TypeDecl → List (String × Span)
  | ⟨_, _, _, _, _, _, members, span⟩ => (qualified, span) :: Member.declaredTypes qualified members

/-- The types among the members of a type under their qualified names. -/
def Member.declaredTypes (qualified : String) : List Member → List (String × Span)
  | [] => []
  | .type t :: members =>
      t.declared (qualified ++ "." ++ t.name) ++ Member.declaredTypes qualified members
  | _ :: members => Member.declaredTypes qualified members

end

/-- The types that a unit declares under their qualified names, outer types first. -/
def Outline.declaredTypes (outline : Outline) : List (String × Span) :=
  outline.types.flatMap fun t => t.declared (qualify outline.packageName t.name)

/-! ### The index -/

/-- A type that some unit declares. -/
structure TypeBinding where
  /-- The qualified name. -/
  name : String
  file : String
  span : Span
deriving DecidableEq, Repr, Inhabited

/-- The types of a batch, no two under one name. -/
structure TypeIndex where
  bindings : List TypeBinding := []
deriving DecidableEq, Repr, Inhabited

namespace TypeIndex

/-- The type under a name. -/
def find? (index : TypeIndex) (name : String) : Option TypeBinding :=
  index.bindings.find? (·.name == name)

/-- Whether there is a type under a name. -/
def knowsType (index : TypeIndex) (name : String) : Bool := (index.find? name).isSome

/-- Whether a type is declared in a package, or in a type of that name. -/
def knowsPackage (index : TypeIndex) (name : String) : Bool :=
  index.bindings.any fun binding => enclosingName? binding.name == some name

/-- The number of types. -/
def size (index : TypeIndex) : Nat := index.bindings.length

/-- Enters a type, or answers with the type that has the name already. -/
def define (index : TypeIndex) (binding : TypeBinding) : Except TypeBinding TypeIndex :=
  match index.find? binding.name with
  | some earlier => .error earlier
  | none => .ok { bindings := index.bindings ++ [binding] }

/-- The type entered is found, and others are found as before. -/
theorem find?_define {index after : TypeIndex} {binding : TypeBinding}
    (h : index.define binding = .ok after) (name : String) :
    after.find? name = if binding.name = name then some binding else index.find? name := by
  unfold define at h
  split at h
  · simp at h
  · rename_i hnone
    have hafter := Except.ok.inj h
    subst hafter
    unfold find? at hnone ⊢
    rw [List.find?_append]
    by_cases hname : binding.name = name
    · subst hname
      simp [hnone]
    · simp [hname]

end TypeIndex

end JavaOutline
