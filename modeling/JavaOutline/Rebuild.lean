/-
**Rebuilding units.**

The units of a batch that were selected are told to a builder one after another.  A unit that the
builder rejects is forgotten, and the others go on; a builder that lacks an entry point ends the
batch.  The names that a rebuilt unit has in scope are recorded.

Main definitions:

* `RebuildError`, `LinkageError`, `UnitFailure` — why a unit is not rebuilt;
* `Workshop` — a builder's state and the conflict index, which change from unit to unit;
* `rebuildUnit` — rebuilding one unit;
* `rebuildAll`, `RebuildReport` — rebuilding units in order.
-/

import JavaOutline.Builder
import JavaOutline.ConflictIndex
import JavaOutline.Log.Record
import JavaOutline.Registry

set_option autoImplicit false

namespace JavaOutline

/-! ### Errors -/

/-- Why a single unit is not rebuilt. -/
inductive RebuildError where
  /-- The builder rejected a node of it. -/
  | rejected (file message : String)
  /-- It has no outline. -/
  | missingTree (file : String)
  /-- Some of its bodies still wait to be parsed. -/
  | unparsedBodies (file : String)
deriving DecidableEq, Repr, Inhabited

namespace RebuildError

/-- The file of the unit. -/
def file : RebuildError → String
  | rejected file _ => file
  | missingTree file => file
  | unparsedBodies file => file

/-- The text of the error. -/
def message : RebuildError → String
  | rejected file message => "Failed to translate '" ++ file ++ "': " ++ message
  | missingTree file => "Unit '" ++ file ++ "' has no syntax tree to translate"
  | unparsedBodies file => "Unit '" ++ file ++ "' still has unparsed bodies"

/-- The code of the error. -/
def code (_ : RebuildError) : Code := .unitNotRebuilt

end RebuildError

/-- The builder lacks an entry point, so that the batch cannot go on. -/
structure LinkageError where
  entryPoint : String
  file : String
deriving DecidableEq, Repr, Inhabited

namespace LinkageError

/-- The text of the error. -/
def message (e : LinkageError) : String :=
  "Native linkage failure at '" ++ e.entryPoint ++ "' while translating '" ++ e.file ++ "'"

/-- The code of the error. -/
def code (_ : LinkageError) : Code := .linkageFailure

/-- What should be looked at. -/
def guidance (e : LinkageError) : String := e.code.action

end LinkageError

/-- Why a unit is not rebuilt. -/
inductive UnitFailure where
  | unit (error : RebuildError)
  | linkage (error : LinkageError)
deriving DecidableEq, Repr, Inhabited

/-- The failure of a unit that a failure of the builder leads to. -/
def BuilderError.unitFailure (file : String) : BuilderError → UnitFailure
  | .rejected node message => .unit (.rejected file (node ++ ": " ++ message))
  | .linkage entryPoint => .linkage { entryPoint, file }

/-! ### One unit -/

/-- What changes while units are rebuilt. -/
structure Workshop (β : Type) where
  builder : β
  conflicts : ConflictIndex

section

variable {β : Type}

/-- The outline of a unit that is ready to be rebuilt. -/
def CompilationUnit.readyOutline (unit : CompilationUnit) : Except RebuildError Outline :=
  match unit.outline with
  | none => .error (.missingTree unit.file)
  | some outline =>
      if outline.hasUnparsedBodies then .error (.unparsedBodies unit.file) else .ok outline

/-- Rebuilds a unit.  If the builder fails, it is told to forget the unit. -/
def rebuildUnit (builder : Builder β) (level : LanguageLevel) (verbosity : Nat)
    (unit : CompilationUnit) (shop : Workshop β) :
    Logged (Except UnitFailure Unit × CompilationUnit × Workshop β) :=
  match unit.readyOutline with
  | .error e => pure (.error (.unit e), unit, shop)
  | .ok outline =>
      match builder.feed (outline.nodeEvents unit.file level) shop.builder with
      | (.error e, state) =>
          pure (.error (e.unitFailure unit.file), unit,
            { shop with builder := builder.abort unit.file state })
      | (.ok (), state) => do
          if 2 < verbosity then
            Logged.tell ((LogEvent.success .unitRebuilt "Unit translated").notes
              [("file", unit.file), ("level", level.tag)])
          return (.ok (), { unit with state := .rebuilt },
            { builder := state, conflicts := shop.conflicts.record unit.file outline })

/-! ### All units -/

/-- What became of the units of a batch. -/
structure RebuildReport where
  /-- The files that were rebuilt. -/
  rebuilt : List String := []
  /-- Why the others were not. -/
  failures : List RebuildError := []
deriving DecidableEq, Repr, Inhabited

/-- Whether some unit was not rebuilt. -/
def RebuildReport.hasFailures (report : RebuildReport) : Bool := !report.failures.isEmpty

/-- Writes to the log that a unit was not rebuilt. -/
def logFailure (unit : CompilationUnit) (level : LanguageLevel) (e : RebuildError) : Logged Unit :=
  Logged.tell ((LogEvent.error e.code e.message).notes
    [("file", unit.file), ("ordinal", toString unit.ordinal), ("level", level.tag)])

/-- Writes to the log that the builder lacks an entry point. -/
def logLinkage (unit : CompilationUnit) (e : LinkageError) : Logged Unit :=
  Logged.tell ((LogEvent.error e.code e.message).notes
    [("file", unit.file), ("entry_point", e.entryPoint), ("action", e.guidance)])

/-- Rebuilds units in order, behind others for which there is a report.  The units come back in
their order. -/
def rebuildFrom (builder : Builder β) (level : LanguageLevel) (verbosity : Nat) :
    List CompilationUnit → RebuildReport → Workshop β →
      Logged (Except LinkageError RebuildReport × List CompilationUnit × Workshop β)
  | [], report, shop => pure (.ok report, [], shop)
  | unit :: units, report, shop => do
      let (answer, after, shop) ←
        Logged.inUnit unit.context (rebuildUnit builder level verbosity unit shop)
      match answer with
      | .ok () =>
          let (found, later, shop) ←
            rebuildFrom builder level verbosity units
              { report with rebuilt := report.rebuilt ++ [unit.file] } shop
          return (found, after :: later, shop)
      | .error (.unit e) =>
          logFailure unit level e
          let (found, later, shop) ←
            rebuildFrom builder level verbosity units
              { report with failures := report.failures ++ [e] } shop
          return (found, after :: later, shop)
      | .error (.linkage e) =>
          logLinkage unit e
          return (.error e, after :: units, shop)

/-- Rebuilds units in order. -/
def rebuildAll (builder : Builder β) (level : LanguageLevel) (verbosity : Nat)
    (units : List CompilationUnit) (shop : Workshop β) :
    Logged (Except LinkageError RebuildReport × List CompilationUnit × Workshop β) := do
  let (found, after, shop) ← rebuildFrom builder level verbosity units {} shop
  match found with
  | .error e => return (.error e, after, shop)
  | .ok report =>
      Logged.tell ((LogEvent.success .batchRebuilt "Batch translated").notes
        [("translated", toString report.rebuilt.length),
         ("failed", toString report.failures.length)])
      return (.ok report, after, shop)

end

/-- The slots, the first of which has a number, with units back in the occupied slots that the
ordinals name.  The units come in the order of the slots. -/
def Registry.putBackFrom (ordinals : List Nat) :
    Nat → List (Option CompilationUnit) → List CompilationUnit → List (Option CompilationUnit)
  | _, [], _ => []
  | index, none :: slots, units => none :: putBackFrom ordinals (index + 1) slots units
  | index, some unit :: slots, units =>
      if ordinals.contains index then
        some (units.head?.getD unit) :: putBackFrom ordinals (index + 1) slots units.tail
      else some unit :: putBackFrom ordinals (index + 1) slots units

/-- The registry with units back in the slots that the ordinals name, in the order in which
`Registry.selected` gives them out. -/
def Registry.putBack (registry : Registry) (ordinals : List Nat) (units : List CompilationUnit) :
    Registry :=
  { registry with slots := putBackFrom ordinals 0 registry.slots units }

end JavaOutline
