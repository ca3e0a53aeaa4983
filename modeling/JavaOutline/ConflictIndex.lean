/-
**Which names a file has in scope.**

For every file that was rebuilt the index remembers its package, the types it declares at the top
level and the types it imports one by one.  A type conflicts with a file that sees another type
under the same simple name.

Main definitions:

* `FileScope`, `Outline.scope` — the names in scope;
* `ConflictIndex` — the scopes of files;
* `ConflictIndex.record`, `ConflictIndex.hasConflict` — entering a file, and the question.

Main results:

* `ConflictIndex.scope?_record` — the scope recorded last counts.
-/

import JavaOutline.Outline

set_option autoImplicit false

namespace JavaOutline

/-- The names that a file has in scope. -/
structure FileScope where
  /-- The package, empty if there is none. -/
  package : String := ""
  /-- The types declared at the top level. -/
  declared : List String := []
  /-- The simple names imported one by one, with their qualifiers. -/
  imported : List (String × String) := []
deriving DecidableEq, Repr, Inhabited

/-- The qualifier under which a single import brings a type into scope. -/
def ImportDecl.singleType? (i : ImportDecl) : Option (String × String) :=
  if i.isStatic || i.onDemand then none else i.simpleName.map (·, i.qualifier)

/-- The names that a unit has in scope. -/
def Outline.scope (outline : Outline) : FileScope where
  package := outline.packageName.getD ""
  declared := outline.types.map TypeDecl.name
  imported := outline.imports.filterMap ImportDecl.singleType?

namespace FileScope

/-- The qualifier of an imported name; the last import of the name counts. -/
def qualifier? (scope : FileScope) (name : String) : Option String :=
  (scope.imported.reverse.find? (·.1 == name)).map Prod.snd

/-- Whether another type than `package.name` is in scope under the name. -/
def conflictsWith (scope : FileScope) (package name : String) : Bool :=
  (scope.declared.contains name && scope.package != package) ||
    (match scope.qualifier? name with
      | some qualifier => qualifier != package
      | none => false)

end FileScope

/-- The scopes of files, no two for one file. -/
structure ConflictIndex where
  scopes : List (String × FileScope) := []
deriving DecidableEq, Repr, Inhabited

namespace ConflictIndex

/-- The scope of a file. -/
def scope? (index : ConflictIndex) (file : String) : Option FileScope := index.scopes.lookup file

/-- Whether a file was recorded. -/
def contains (index : ConflictIndex) (file : String) : Bool := (index.scope? file).isSome

/-- The number of files. -/
def size (index : ConflictIndex) : Nat := index.scopes.length

/-- Records the names that a unit has in scope; what was recorded for the file before is
forgotten. -/
def record (index : ConflictIndex) (file : String) (outline : Outline) : ConflictIndex where
  scopes := (file, outline.scope) :: index.scopes.filter (·.1 != file)

/-- Whether a file sees another type than `package.name` under the name. -/
def hasConflict (index : ConflictIndex) (file package name : String) : Bool :=
  match index.scope? file with
  | some scope => scope.conflictsWith package name
  | none => false

/-- Looking up a file is not disturbed by the removal of another one. -/
theorem lookup_filter_of_ne {file other : String} (h : other ≠ file)
    (scopes : List (String × FileScope)) :
    (scopes.filter (·.1 != file)).lookup other = scopes.lookup other := by
  induction scopes with
  | nil => rfl
  | cons entry scopes ih =>
      obtain ⟨name, scope⟩ := entry
      by_cases hname : name = file
      · subst hname
        simpa [List.lookup_cons, beq_false_of_ne h] using ih
      · simp [hname, List.lookup_cons, ih]

/-- The scope recorded last counts, and other files are not touched. -/
theorem scope?_record (index : ConflictIndex) (file other : String) (outline : Outline) :
    (index.record file outline).scope? other =
      if other = file then some outline.scope else index.scope? other := by
  unfold scope? record
  by_cases h : other = file
  · subst h
    simp
  · simp only [List.lookup_cons, beq_false_of_ne h, if_neg h]
    exact lookup_filter_of_ne h index.scopes

end ConflictIndex

end JavaOutline
