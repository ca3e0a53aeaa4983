/-
**Paths of files.**

A path is written as a text.  Two texts are the same path if they have the same components: repeated
separators, separators at the end and single points other than the first do not count.  Paths are
ordered component by component.

Main definitions:

* `Path.Component`, `Path.components` — what a path is made of;
* `Path.precedes` — the order;
* `Path.push` — a path below another one;
* `Path.fileName?`, `Path.fileStem` — the last name of a path, and the same without its extension.
-/

set_option autoImplicit false

namespace JavaOutline

namespace Path

/-! ### Components -/

/-- A component of a path. -/
inductive Component where
  /-- The root, in front of an absolute path. -/
  | root
  /-- The current directory, in front of a relative path. -/
  | current
  /-- The directory above. -/
  | parent
  /-- A name. -/
  | name (text : String)
deriving DecidableEq, Repr, Inhabited

/-- The texts between the separators of a path. -/
def segments (path : String) : List String :=
  (path.toList.splitOn '/').map String.ofList

/-- Whether a path starts at the root. -/
def isAbsolute (path : String) : Bool := path.toList.head? == some '/'

/-- The component that a text between separators is, if it counts. -/
def component? (segment : String) : Option Component :=
  if segment == "" || segment == "." then none
  else if segment == ".." then some .parent
  else some (.name segment)

/-- The components of a path. -/
def components (path : String) : List Component :=
  let body := (segments path).filterMap component?
  if isAbsolute path then .root :: body
  else if (segments path).head? == some "." then .current :: body
  else body

/-! ### Order -/

/-- The rank of the sort of a component. -/
def Component.rank : Component → Nat
  | .root => 0
  | .current => 1
  | .parent => 2
  | .name _ => 3

/-- Whether a component comes before another one. -/
def Component.precedes (a b : Component) : Bool :=
  match a, b with
  | .name x, .name y => x < y
  | a, b => a.rank < b.rank

/-- Whether components come before others, the first difference deciding. -/
def precedes : List Component → List Component → Bool
  | [], [] => false
  | [], _ :: _ => true
  | _ :: _, [] => false
  | a :: as, b :: bs => a.precedes b || (a == b && precedes as bs)

/-! ### Building paths -/

/-- The path `part` below `path`; an absolute part stands for itself. -/
def push (path part : String) : String :=
  if isAbsolute part then part
  else if path.isEmpty || path.toList.getLast? == some '/' then path ++ part
  else path ++ "/" ++ part

/-! ### Names -/

/-- The last name of a path, if it ends with one. -/
def fileName? (path : String) : Option String :=
  match (components path).getLast? with
  | some (.name text) => some text
  | _ => none

/-- The name up to its last point.  A name whose only point is in front keeps it. -/
def stemOf (name : String) : String :=
  match (name.toList.splitOn '.').reverse with
  | _ :: before =>
      let stem := ['.'].intercalate before.reverse
      if stem.isEmpty then name else String.ofList stem
  | [] => name

/-- The last name of a path up to its last point, empty if the path ends with no name. -/
def fileStem (path : String) : String :=
  ((fileName? path).map stemOf).getD ""

end Path

end JavaOutline
