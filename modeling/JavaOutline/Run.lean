/-
**Runs.**

A run takes a command line to rebuilt units.  The verbosity flags are taken out, the batch is
compiled, units are selected and rebuilt, and every unit of the batch is accepted in the end.  What
has to outlive the run is in the session.  A run that fails before anything is rebuilt leaves the
session as it was, but for the verbosity.

Main definitions:

* `RunSettings`, `RunState` — what a run is given, and what it changes;
* `RunError`, `Outcome` — how it ends;
* `acceptAll`, `Acceptance` — the end of the units;
* `run` — the run.
-/

import JavaOutline.Batch
import JavaOutline.Batch.Selection
import JavaOutline.Rebuild
import JavaOutline.Session.Verbosity

set_option autoImplicit false

namespace JavaOutline

/-! ### Settings and states -/

/-- What a run is given besides its command line. -/
structure RunSettings where
  flag : FlagStyle := {}
  reading : ReadingPreferences := {}
deriving DecidableEq, Repr, Inhabited

/-- What a run changes. -/
structure RunState (φ β : Type) where
  front : φ
  builder : β
  session : Session := {}

/-! ### How a run fails -/

/-- How a run fails. -/
inductive RunError where
  /-- The command line is wrong. -/
  | config (error : ConfigError)
  /-- There are errors that belong to no parsed unit. -/
  | globalErrors (count : Nat)
  /-- A unit has errors. -/
  | diagnostics (error : DiagnosticError)
  /-- The builder lacks an entry point. -/
  | linkage (error : LinkageError)
  /-- The builder fails at a border of the batch. -/
  | builder (error : BuilderError)
deriving DecidableEq, Repr, Inhabited

namespace RunError

/-- The text of the error. -/
def message : RunError → String
  | config e => "Configuration failed: " ++ e.message
  | globalErrors count =>
      "ECJ front-end errors detected in input java program (" ++ toString count ++
        " global error(s))"
  | diagnostics e => "ECJ front-end errors detected in input java program: " ++ e.message
  | linkage e => "Native linkage failed: " ++ e.message
  | builder e => "Builder failed at batch boundary: " ++ e.message

/-- The code of the error. -/
def code : RunError → Code
  | config e => e.code
  | globalErrors _ => .globalErrors
  | diagnostics e => e.code
  | linkage e => e.code
  | builder (.linkage _) => .linkageFailure
  | builder (.rejected _ _) => .unitNotRebuilt

/-- The exit status of the process. -/
def exitStatus (_ : RunError) : Nat := 1

end RunError

/-! ### How a run succeeds -/

/-- What became of a unit. -/
inductive Disposition where
  | rebuilt
  | skipped
  | failed
deriving DecidableEq, Repr, Inhabited

/-- A unit with which the batch is done. -/
structure Acceptance where
  file : String
  disposition : Disposition
  problemCount : Nat
  lineCount : Nat
deriving DecidableEq, Repr, Inhabited

/-- The unit as an object. -/
def Acceptance.json (a : Acceptance) : JsonValue :=
  .object
    [⟨"file_name", .text a.file⟩,
     ⟨"disposition", .text (match a.disposition with
       | .rebuilt => "translated"
       | .skipped => "skipped"
       | .failed => "failed")⟩,
     ⟨"problem_count", .number a.problemCount⟩, ⟨"line_count", .number a.lineCount⟩]

/-- What a run gives. -/
structure Outcome where
  level : LanguageLevel
  /-- The files that were selected, in the order of the registry. -/
  selected : List String
  rebuilt : List String
  failures : List RebuildError
  /-- The files that were neither rebuilt nor failed. -/
  skipped : List String
  /-- The units in the order of the registry. -/
  accepted : List Acceptance
  unitsAccepted : Nat
  lineCount : Nat
  /-- The number of files that were handled in the session. -/
  processedTotal : Nat
  /-- Whether rebuilding ever failed in the session. -/
  failed : Bool
deriving DecidableEq, Repr, Inhabited

namespace Outcome

/-- The text that lists what was selected. -/
def batchReport (outcome : Outcome) : String :=
  let count := outcome.selected.length
  "Total units processed: " ++ toString outcome.processedTotal ++
    "; In this iteration, the following " ++ toString count ++ " unit" ++
    (if count = 1 then "" else "s") ++ " will be processed:" ++
    String.join (outcome.selected.map ("\n   " ++ ·))

/-- The exit status of the process; a unit that was not rebuilt does not show in it. -/
def exitStatus (_ : Outcome) : Nat := 0

end Outcome

/-! ### Accepting units -/

/-- What is counted while units are accepted. -/
structure Tally where
  accepted : List Acceptance := []
  skipped : List String := []
  unitsAccepted : Nat := 0
  lineCount : Nat := 0
deriving DecidableEq, Repr, Inhabited

/-- What became of a unit, where some files failed. -/
def dispositionOf (failed : List String) (unit : CompilationUnit) : Disposition :=
  if unit.state = .rebuilt then .rebuilt
  else if failed.contains unit.file then .failed
  else .skipped

/-- Accepts a unit. -/
def Tally.accept (failed : List String) (tally : Tally) (unit : CompilationUnit) : Tally :=
  let disposition := dispositionOf failed unit
  let report := unit.release.accept.report
  { accepted := tally.accepted ++
      [{ file := report.file, disposition, problemCount := report.problemCount
         lineCount := report.lineCount }]
    skipped :=
      if disposition = .skipped then tally.skipped ++ [unit.file] else tally.skipped
    unitsAccepted := tally.unitsAccepted + 1
    lineCount := tally.lineCount + report.lineCount }

/-- Takes every unit out of its slot and accepts it. -/
def acceptFrom (failed : List String) : List Nat → Registry → Tally → Tally × Registry
  | [], registry, tally => (tally, registry)
  | index :: indices, registry, tally =>
      match registry.take index with
      | (none, registry) => acceptFrom failed indices registry tally
      | (some unit, registry) => acceptFrom failed indices registry (tally.accept failed unit)

/-- Takes the units out of their slots in order and accepts them. -/
def acceptAll (failed : List String) (registry : Registry) : Tally × Registry :=
  acceptFrom failed (List.range registry.size) registry {}

/-! ### The run -/

section

variable {φ β : Type}

/-- Writes an error to the log. -/
def logRunError (code : Code) (message : String) (context : List (String × String)) : Logged Unit :=
  Logged.tell ((LogEvent.error code message).notes context)

/-- Whether a file is asked for: the builder says so, or else the command line. -/
def askBuilder (builder : Builder β) (batch : Batch) (file : String) (state : β) : Bool × β :=
  let (answer, next) := builder.isSpecified file state
  (answer.getD (batch.isRequested file), next)

/-- The files in slots of a registry. -/
def filesAt (registry : Registry) (indices : List Nat) : List String :=
  (indices.filterMap registry.get?).map CompilationUnit.file

/-- The session after the builder turned out to lack an entry point: what was rebuilt until then
counts as handled. -/
def Session.afterLinkage (session : Session) (registry : Registry) : Session :=
  (session.markAll ((registry.units.filter (·.state == UnitState.rebuilt)).map
    CompilationUnit.file)).fail

/-- The session after a batch was rebuilt. -/
def Session.afterRebuild (session : Session) (files : List String) (report : RebuildReport) :
    Session :=
  let marked := session.markAll files
  if report.hasFailures then marked.fail else marked

/-- Accepts the units of a batch that was rebuilt, and ends the batch. -/
def finishBatch (builder : Builder β) (level : LanguageLevel) (files : List String)
    (report : RebuildReport) (registry : Registry) (state : RunState φ β) :
    Logged (Except RunError Outcome × RunState φ β) := do
  let (tally, _) := acceptAll (report.failures.map RebuildError.file) registry
  Logged.tell ((LogEvent.success .batchAccepted "Batch accepted").notes
    [("batch", toString state.session.batches), ("units", toString tally.unitsAccepted),
     ("lines", toString tally.lineCount)])
  match builder.endBatch state.builder with
  | (.error e, next) =>
      return (.error (.builder e), { state with builder := next, session := state.session.fail })
  | (.ok (), next) =>
      return (.ok
        { level, selected := files, rebuilt := report.rebuilt, failures := report.failures
          skipped := tally.skipped, accepted := tally.accepted
          unitsAccepted := tally.unitsAccepted, lineCount := tally.lineCount
          processedTotal := state.session.processedCount, failed := state.session.failed },
        { state with builder := next })

/-- Rebuilds the units in the slots that were selected. -/
def rebuildBatch (builder : Builder β) (level : LanguageLevel) (registry : Registry)
    (selected : List Nat) (state : RunState φ β) :
    Logged (Except RunError Outcome × RunState φ β) := do
  match builder.beginBatch state.builder with
  | (.error e, next) => return (.error (.builder e), { state with builder := next })
  | (.ok (), next) =>
      let session := state.session.beginBatch
      let files := filesAt registry selected
      Logged.tell ((LogEvent.info "Units selected for translation").notes
        [("batch", toString session.batches),
         ("previously_processed", toString session.processedCount),
         ("selected", toString files.length)])
      let (found, units, shop) ←
        rebuildAll builder level session.verbosity (registry.selected selected)
          { builder := next, conflicts := session.conflicts }
      let registry := registry.putBack selected units
      let session := { session with conflicts := shop.conflicts }
      match found with
      | .error e =>
          return (.error (.linkage e),
            { state with builder := shop.builder, session := session.afterLinkage registry })
      | .ok report =>
          finishBatch builder level files report registry
            { state with builder := shop.builder, session := session.afterRebuild files report }

/-- Selects the units of a batch and rebuilds them, unless there are errors. -/
def runBatch (frontEnd : FrontEnd φ) (builder : Builder β) (batch : Batch)
    (state : RunState φ β) : Logged (Except RunError Outcome × RunState φ β) := do
  if 0 < batch.globalErrors then
    let error := RunError.globalErrors batch.globalErrors
    logRunError error.code error.message [("count", toString batch.globalErrors)]
    return (.error error, state)
  else
    let (found, registry, front, asked) ←
      selectUnits frontEnd state.session (askBuilder builder batch) batch.registry state.front
        state.builder
    let state := { state with front, builder := asked }
    match found with
    | .error e =>
        logRunError e.code e.message
          [("file", e.file), ("errors", toString e.errorCount)]
        return (.error (.diagnostics e), state)
    | .ok selected => rebuildBatch builder batch.level registry selected state

/-- Compiles the batch that a command line asks for and rebuilds the units it names. -/
def run (frontEnd : FrontEnd φ) (builder : Builder β) (tree : FileTree) (settings : RunSettings)
    (arguments : List String) (state : RunState φ β) :
    Logged (Except RunError Outcome × RunState φ β) := do
  let (filtered, session) ← state.session.filterArguments settings.flag arguments
  let state := { state with session }
  match filtered with
  | .error e =>
      logRunError e.code e.message []
      return (.error (.config e), state)
  | .ok remaining =>
      let (compiled, front) ← Batch.compile frontEnd tree settings.reading remaining state.front
      let state := { state with front }
      match compiled with
      | .error e =>
          logRunError e.code e.message []
          return (.error (.config e), state)
      | .ok batch => runBatch frontEnd builder batch state

end

end JavaOutline
