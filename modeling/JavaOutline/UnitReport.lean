/-
**Reports on units.**

A report gathers what is found out about one unit of a batch: its problems up to a limit, whether
its syntax is broken, where its lines end, and the package it declares.

Main definitions:

* `Problem` — an error or a warning;
* `UnitReport` — the report on a unit;
* `UnitReport.record`, `UnitReport.recordSyntaxError` — adding a problem;
* `UnitReport.json` — the report as JSON.

Main results:

* `UnitReport.problemCount_record` — every problem is counted;
* `UnitReport.hasErrors_record_error` — **the limit never hides that a unit failed**.
-/

import JavaOutline.Code
import JavaOutline.JsonValue
import JavaOutline.Span

set_option autoImplicit false

namespace JavaOutline

/-- A problem of a unit. -/
structure Problem where
  code : Code
  message : String
  span : Option Span := none
  /-- Whether it is an error; otherwise it is a warning. -/
  isError : Bool := true
deriving DecidableEq, Repr, Inhabited

/-- What is found out about a unit. -/
structure UnitReport where
  /-- The file of the unit. -/
  file : String
  /-- The place of the unit in its batch. -/
  index : Nat := 0
  /-- How many units the batch had when the report was begun. -/
  knownUnits : Nat := 0
  /-- The most problems that are kept. -/
  maxProblems : Nat
  /-- The problems that are kept, in order. -/
  problems : List Problem := []
  /-- The number of problems beyond the limit. -/
  suppressed : Nat := 0
  hasSyntaxError : Bool := false
  /-- The offsets of the line separators. -/
  separators : List Nat := []
  /-- The parts of the name of the package. -/
  packageParts : Option (List String) := none
  /-- Whether the batch is done with the unit. -/
  accepted : Bool := false
deriving DecidableEq, Repr, Inhabited

namespace UnitReport

/-! ### Questions -/

/-- Whether an error is kept. -/
def hasErrors (report : UnitReport) : Bool := report.problems.any Problem.isError

/-- The number of errors that are kept. -/
def errorCount (report : UnitReport) : Nat := report.problems.countP Problem.isError

/-- The number of problems, kept or not. -/
def problemCount (report : UnitReport) : Nat := report.problems.length + report.suppressed

/-- The number of lines that end. -/
def lineCount (report : UnitReport) : Nat := report.separators.length

/-! ### Recording -/

/-- Adds a problem.  Beyond the limit it is counted only, but the first error takes the place of the
last warning if no error is kept. -/
def record (report : UnitReport) (problem : Problem) : UnitReport :=
  if report.problems.length < report.maxProblems then
    { report with problems := report.problems ++ [problem] }
  else if problem.isError && !report.hasErrors then
    { report with
      problems := report.problems.dropLast ++ [problem]
      suppressed := report.suppressed + 1 }
  else { report with suppressed := report.suppressed + 1 }

/-- Adds problems in order. -/
def recordAll (report : UnitReport) (problems : List Problem) : UnitReport :=
  problems.foldl record report

/-- Adds a syntax error. -/
def recordSyntaxError (report : UnitReport) (message : String) (span : Option Span) : UnitReport :=
  { report with hasSyntaxError := true }.record { code := .syntaxError, message, span }

/-- Marks the unit as done. -/
def accept (report : UnitReport) : UnitReport := { report with accepted := true }

/-! ### JSON -/

/-- A position as an object. -/
def positionJson (position : Position) : JsonValue :=
  .object
    [⟨"offset", .number position.offset⟩, ⟨"line", .number position.line⟩,
     ⟨"column", .number position.column⟩]

/-- A problem as an object. -/
def problemJson (problem : Problem) : JsonValue :=
  .object
    [⟨"code", .text problem.code.text⟩, ⟨"message", .text problem.message⟩,
     ⟨"span", .optional
       (fun span =>
         .object [⟨"start", positionJson span.start⟩, ⟨"end", positionJson span.stop⟩])
       problem.span⟩,
     ⟨"is_error", .bool problem.isError⟩]

/-- The report as an object. -/
def json (report : UnitReport) : JsonValue :=
  .object
    [⟨"file_name", .text report.file⟩, ⟨"unit_index", .number report.index⟩,
     ⟨"total_units_known", .number report.knownUnits⟩,
     ⟨"max_problems", .number report.maxProblems⟩,
     ⟨"problems", .array (report.problems.map problemJson)⟩,
     ⟨"suppressed_problems", .number report.suppressed⟩,
     ⟨"has_syntax_error", .bool report.hasSyntaxError⟩,
     ⟨"line_separator_positions", .numbers report.separators⟩,
     ⟨"package_name", .optional .texts report.packageParts⟩, ⟨"accepted", .bool report.accepted⟩]

/-! ### What recording does -/

/-- Every problem is counted, unless nothing may be kept. -/
theorem problemCount_record {report : UnitReport} (h : 0 < report.problems.length ∨
    0 < report.maxProblems) (problem : Problem) :
    (report.record problem).problemCount = report.problemCount + 1 := by
  unfold record problemCount
  split
  · simp
    omega
  · split
    · simp
      omega
    · simp
      omega

/-- The limit never hides an error. -/
theorem hasErrors_record_error (report : UnitReport) {problem : Problem}
    (h : problem.isError = true) : (report.record problem).hasErrors = true := by
  unfold record
  split
  · simp [hasErrors, h]
  · split
    · simp [hasErrors, h]
    · rename_i hkept
      simpa [hasErrors, h] using hkept

end UnitReport

end JavaOutline
