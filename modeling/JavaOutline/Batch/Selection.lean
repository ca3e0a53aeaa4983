/-
**Selecting the units to rebuild.**

The units of a batch are visited in order.  A unit whose file was handled before, in an earlier
batch or earlier in this one, is not selected again; a unit that nobody asked for is there for
others only; every other unit is processed and selected.  The first unit with an error ends the
visit, whether it was selected or not.

Main definitions:

* `DiagnosticError` — the error of a unit that ends the visit;
* `Selection` — what the visit gives;
* `selectUnits` — the visit.
-/

import JavaOutline.FrontEnd
import JavaOutline.Session

set_option autoImplicit false

namespace JavaOutline

/-- A unit has errors, so that the batch cannot be rebuilt. -/
structure DiagnosticError where
  file : String
  errorCount : Nat
  hasSyntaxError : Bool
deriving DecidableEq, Repr, Inhabited

namespace DiagnosticError

/-- The error of a unit that was visited for a file. -/
def ofUnit (file : String) (unit : CompilationUnit) : DiagnosticError where
  file := file
  errorCount := unit.report.errorCount
  hasSyntaxError := unit.hasSyntaxError

/-- The text of the error. -/
def message (e : DiagnosticError) : String :=
  "Front-end errors in '" ++ e.file ++ "': " ++ toString e.errorCount ++
    " error(s), syntax errors: " ++ (if e.hasSyntaxError then "true" else "false")

/-- The code of the error. -/
def code (e : DiagnosticError) : Code :=
  if e.hasSyntaxError then .syntaxError else .unitDiagnostics

end DiagnosticError

/-- Writes the errors of a unit that was visited for a file to the log. -/
def logDiagnostics (file : String) (unit : CompilationUnit) (index : Nat) : Logged Unit :=
  Logged.inUnit { file, ordinal := index }
    { value := ()
      log := (unit.report.problems.filter Problem.isError).map fun problem =>
        .event none (((LogEvent.error .unitDiagnostics problem.message).located problem.span).note
          "problem_code" problem.code.text) }

/-- What a visit of the units gives. -/
structure Selection (φ σ : Type) where
  /-- The slots that were selected, or the error that ended the visit. -/
  answer : Except DiagnosticError (List Nat)
  /-- The slots afterwards. -/
  slots : List (Option CompilationUnit)
  /-- The front end afterwards. -/
  front : φ
  /-- The state of whoever is asked about files. -/
  asked : σ

namespace Selection

variable {φ σ : Type}

/-- The selection with one more slot in front, which was selected or not. -/
def cons (slot : Option CompilationUnit) (selected : Option Nat) (later : Selection φ σ) :
    Selection φ σ :=
  { later with
    slots := slot :: later.slots
    answer := later.answer.map (selected.toList ++ ·) }

end Selection

/-- What becomes of a unit when it is visited. -/
structure Visit (φ σ : Type) where
  unit : CompilationUnit
  isSelected : Bool
  front : φ
  asked : σ

section

variable {φ σ : Type}

/-- Visits a unit.  `seen` holds the files that were selected before in this batch. -/
def visitUnit (frontEnd : FrontEnd φ) (session : Session) (ask : String → σ → Bool × σ)
    (index : Nat) (seen : List String) (unit : CompilationUnit) (front : φ) (asked : σ) :
    Logged (Visit φ σ) :=
  if session.isProcessed unit.file || seen.contains unit.file then
    pure { unit := { unit with state := .alreadyProcessed }, isSelected := false, front, asked }
  else
    match ask unit.file asked with
    | (false, asked) =>
        pure { unit := { unit with state := .skippedTransitive }, isSelected := false, front, asked }
    | (true, asked) => do
        let (unit, front) ← frontEnd.process unit index front
        return { unit, isSelected := true, front, asked }

/-- Visits the units in slots, the first of which has a number. -/
def selectFrom (frontEnd : FrontEnd φ) (session : Session) (ask : String → σ → Bool × σ) :
    Nat → List String → List (Option CompilationUnit) → φ → σ → Logged (Selection φ σ)
  | _, _, [], front, asked => pure { answer := .ok [], slots := [], front, asked }
  | index, seen, none :: slots, front, asked => do
      let later ← selectFrom frontEnd session ask (index + 1) seen slots front asked
      return later.cons none none
  | index, seen, some unit :: slots, front, asked => do
      let visit ← visitUnit frontEnd session ask index seen unit front asked
      if visit.unit.isBroken then
        -- The error names the file that the unit was visited for, whatever became of the unit.
        logDiagnostics unit.file visit.unit index
        return { answer := .error (.ofUnit unit.file visit.unit)
                 slots := some visit.unit :: slots, front := visit.front, asked := visit.asked }
      else if visit.isSelected then
        let later ←
          selectFrom frontEnd session ask (index + 1) (unit.file :: seen) slots visit.front
            visit.asked
        return later.cons (some visit.unit) (some index)
      else
        let later ←
          selectFrom frontEnd session ask (index + 1) seen slots visit.front visit.asked
        return later.cons (some visit.unit) none

/-- Visits the units of a registry in order.  `ask` says whether a file is asked for. -/
def selectUnits (frontEnd : FrontEnd φ) (session : Session) (ask : String → σ → Bool × σ)
    (registry : Registry) (front : φ) (asked : σ) :
    Logged (Except DiagnosticError (List Nat) × Registry × φ × σ) := do
  let found ← selectFrom frontEnd session ask 0 [] registry.slots front asked
  return (found.answer, { registry with slots := found.slots }, found.front, found.asked)

end

end JavaOutline
