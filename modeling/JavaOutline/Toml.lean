/-
**TOML values.**

A preferences file is a TOML document: a table of values under keys.  Tables come about in several
ways, and how a table came about decides in which ways it may still be extended.

Main definitions:

* `Toml`, `Toml.TableForm` — values, and how a table came about;
* `Toml.descend` — changing the table at a path of keys;
* `Toml.assign` — giving a key its value;
* `Toml.openTable`, `Toml.openItem` — the headers of a table and of an item in an array of tables.
-/

set_option autoImplicit false

namespace JavaOutline

/-- How a table came about. -/
inductive Toml.TableForm where
  /-- By a header of its own. -/
  | headed
  /-- As part of the path of a header. -/
  | implied
  /-- As part of a dotted key. -/
  | dotted
  /-- Between braces. -/
  | inline
deriving DecidableEq, Repr, Inhabited

/-- A value. -/
inductive Toml where
  | string (text : String)
  | integer (value : Int)
  | float
  | boolean (value : Bool)
  | date
  | array (items : List Toml)
  | table (form : Toml.TableForm) (entries : List (String × Toml))
  /-- An array of tables, each by a header of its own. -/
  | tables (items : List (List (String × Toml)))
deriving Inhabited

namespace Toml

/-- Values under keys. -/
abbrev Entries : Type := List (String × Toml)

/-- The value of a key is replaced. -/
def replace (key : String) (value : Toml) (entries : Entries) : Entries :=
  entries.map fun entry => if entry.1 = key then (key, value) else entry

/-- Whether a table of a form may be entered by a path.  No path leads into braces, and a dotted key
does not lead into a table with a header. -/
def TableForm.admits (dotted : Bool) : TableForm → Bool
  | headed => !dotted
  | implied => true
  | .dotted => true
  | inline => false

/-- Changes the table at a path of keys; tables that are missing are made.  In an array of tables
the path leads to the last one. -/
def descend (dotted : Bool) (change : TableForm → Entries → Option Entries) :
    List String → TableForm → Entries → Option Entries
  | [], form, entries => change form entries
  | key :: path, _, entries =>
      match entries.lookup key with
      | none =>
          let form := if dotted then TableForm.dotted else .implied
          (descend dotted change path form []).map fun inner =>
            entries ++ [(key, .table form inner)]
      | some (.table form inner) =>
          if form.admits dotted then
            (descend dotted change path form inner).map fun inner =>
              replace key (.table form inner) entries
          else none
      | some (.tables items) =>
          match items.getLast? with
          | none => none
          | some inner =>
              (descend dotted change path .headed inner).map fun inner =>
                replace key (.tables (items.dropLast ++ [inner])) entries
      | some _ => none

/-- Gives a key its value, unless it has one. -/
def insertNew (key : String) (value : Toml) (entries : Entries) : Option Entries :=
  if (entries.lookup key).isSome then none else some (entries ++ [(key, value)])

/-- Gives a dotted key its value.  Only a table that dotted keys made is extended by a key with more
than one part. -/
def assign (path : List String) (key : String) (value : Toml) :
    TableForm → Entries → Option Entries :=
  descend true
    (fun form entries =>
      if (form == .dotted) == path.isEmpty then none else insertNew key value entries)
    path

/-- Begins a table by its header.  A table may have one header. -/
def openTable (path : List String) (key : String) (root : Entries) : Option Entries :=
  descend false
    (fun _ entries =>
      match entries.lookup key with
      | none => some (entries ++ [(key, .table .headed [])])
      | some (.table .implied inner) => some (replace key (.table .headed inner) entries)
      | some _ => none)
    path .headed root

/-- Begins one more table in an array of tables by its header. -/
def openItem (path : List String) (key : String) (root : Entries) : Option Entries :=
  descend false
    (fun _ entries =>
      match entries.lookup key with
      | none => some (entries ++ [(key, .tables [[]])])
      | some (.tables items) => some (replace key (.tables (items ++ [[]])) entries)
      | some _ => none)
    path .headed root

end Toml

end JavaOutline
