/-
**Compilation units of a batch.**

A unit is a source of the batch together with its outline, once it has one, the report on it, and
how far the batch has come with it.

Main definitions:

* `SourceOrigin` — why a source belongs to the batch;
* `UnitState` — how far the batch has come with a unit;
* `CompilationUnit` — units;
* `CompilationUnit.release`, `CompilationUnit.accept` — the end of a unit.
-/

import JavaOutline.Log.Collector
import JavaOutline.Outline
import JavaOutline.UnitReport

set_option autoImplicit false

namespace JavaOutline

/-- Why a source belongs to the batch. -/
inductive SourceOrigin where
  /-- The command line names it. -/
  | requested
  /-- Another unit refers to it. -/
  | closure
deriving DecidableEq, Repr, Inhabited

/-- How far the batch has come with a unit. -/
inductive UnitState where
  | unparsed
  | parsed
  | bound
  | rebuilt
  /-- It is there for others to refer to, and was not asked for. -/
  | skippedTransitive
  /-- Its file was handled before. -/
  | alreadyProcessed
  | released
  | accepted
deriving DecidableEq, Repr, Inhabited

/-- A source of the batch with what is known of it. -/
structure CompilationUnit where
  file : String
  origin : SourceOrigin
  report : UnitReport
  /-- The place of the unit in the registry. -/
  ordinal : Nat
  state : UnitState
  /-- The text, as long as it is needed. -/
  source : Option String
  /-- The outline, as long as it is needed. -/
  outline : Option Outline
deriving DecidableEq

namespace CompilationUnit

/-- A unit with a report; it is parsed if it has an outline. -/
def make (file : String) (origin : SourceOrigin) (report : UnitReport) (source : Option String)
    (outline : Option Outline) : CompilationUnit where
  file := file
  origin := origin
  report := report
  ordinal := report.index
  state := if outline.isSome then .parsed else .unparsed
  source := source
  outline := outline

/-- Whether an error is kept in the report. -/
def hasErrors (unit : CompilationUnit) : Bool := unit.report.hasErrors

/-- Whether the syntax is broken. -/
def hasSyntaxError (unit : CompilationUnit) : Bool := unit.report.hasSyntaxError

/-- Whether the unit must not be rebuilt. -/
def isBroken (unit : CompilationUnit) : Bool := unit.hasSyntaxError || unit.hasErrors

/-- The name of the package: that of the outline, or else that of the report. -/
def packageName (unit : CompilationUnit) : Option String :=
  (unit.outline.bind Outline.packageName).or (unit.report.packageParts.map (".".intercalate ·))

/-- The unit with problems added to its report. -/
def recordAll (unit : CompilationUnit) (problems : List Problem) : CompilationUnit :=
  { unit with report := unit.report.recordAll problems }

/-- The unit without its outline and its text; the report is kept. -/
def release (unit : CompilationUnit) : CompilationUnit :=
  { unit with outline := none, source := none, state := .released }

/-- The unit with which the batch is done. -/
def accept (unit : CompilationUnit) : CompilationUnit :=
  { unit with state := .accepted, report := unit.report.accept }

/-- The unit as a place in the log. -/
def context (unit : CompilationUnit) : UnitContext where
  file := unit.file
  ordinal := unit.ordinal

end CompilationUnit

end JavaOutline
