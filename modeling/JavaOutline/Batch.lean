/-
**Batches.**

A batch is made from a command line: the sources are parsed and their types entered in the order in
which they are named, and then the batch is completed.  The first units are parsed in full; behind a
threshold bodies are left for later.

Main definitions:

* `Batch` — a batch that was compiled;
* `Batch.readAhead` — reading the sources of a large batch ahead;
* `Batch.parseAll` — parsing the sources in order;
* `Batch.compile` — the batch that a command line asks for.
-/

import JavaOutline.FrontEnd
import JavaOutline.Preferences
import JavaOutline.SourceFile.Prefetch

set_option autoImplicit false

namespace JavaOutline

/-- A batch that was compiled. -/
structure Batch where
  level : LanguageLevel
  registry : Registry
  /-- The files that the command line names. -/
  requested : List String
  /-- The number of errors that belong to no parsed unit. -/
  globalErrors : Nat
deriving DecidableEq

namespace Batch

variable {φ : Type}

/-- Whether the command line names a file. -/
def isRequested (batch : Batch) (file : String) : Bool := batch.requested.contains file

/-- Reads the sources ahead if there are many of them and that is wanted. -/
def readAhead (tree : FileTree) (reading : ReadingPreferences) (sources : List SourceFile) :
    Logged (List SourceFile) :=
  if !reading.singleThread && readAheadThreshold ≤ sources.length then do
    let (read, count) ← prefetch tree standardSizeLimit reading.effectiveThreads sources
    if count < sources.length then
      Logged.tell ((LogEvent.warning "Some sources could not be prefetched").notes
        [("loaded", toString count), ("requested", toString sources.length)])
    return read
  else pure sources

/-- The unit with the package of its outline in its report. -/
def notePackage (unit : CompilationUnit) : CompilationUnit :=
  match unit.outline.bind Outline.package with
  | some package =>
      { unit with report := { unit.report with packageParts := some (nameParts package.name) } }
  | none => unit

/-- Parses sources in order and enters their types; the first of them has the given place among so
many. -/
def parseAll (frontEnd : FrontEnd φ) (threshold total : Nat) :
    Nat → List SourceFile → Registry → φ → Logged (Registry × φ)
  | _, [], registry, front => pure (registry, front)
  | index, source :: sources, registry, front => do
      let report : UnitReport :=
        { file := source.file, index, knownUnits := total
          maxProblems := (frontEnd.options front).maxProblems }
      let (parsed, front) ← frontEnd.parse source report (decide (threshold ≤ registry.size)) front
      let (bound, front) ← frontEnd.bind parsed front
      parseAll frontEnd threshold total (index + 1) sources (registry.add (notePackage bound)).2
        front

/-- The options of a front end that only reads: it writes no class files. -/
def readOnly (options : Options) : Options :=
  { options with recoverStatements := false, generateClassFiles := false }

/-- Compiles the sources of a batch. -/
def ofSources (frontEnd : FrontEnd φ) (tree : FileTree) (reading : ReadingPreferences)
    (sources : List SourceFile) (front : φ) : Logged (Registry × φ) := do
  let read ← readAhead tree reading sources
  let (registry, front) ←
    parseAll frontEnd reading.parseThreshold sources.length 0 read
      (Registry.ofCapacity sources.length) front
  let (registry, front) ← frontEnd.complete registry front
  -- No time is measured here: the two durations are written as zero.
  Logged.tell ((LogEvent.success .batchCompiled "Batch compiled").notes
    [("requested", toString sources.length), ("total_units", toString registry.size),
     ("parse_ms", "0"), ("resolve_ms", "0")])
  return (registry, front)

/-- The batch that a command line asks for. -/
def compile (frontEnd : FrontEnd φ) (tree : FileTree) (reading : ReadingPreferences)
    (arguments : List String) (front : φ) : Logged (Except ConfigError Batch × φ) := do
  match ← frontEnd.configure arguments front with
  | (.error e, front) => return (.error e, front)
  | (.ok sources, front) =>
      let options := frontEnd.options front
      let front := frontEnd.setOptions (readOnly options) front
      let level := options.sourceLevel
      Logged.tell ((LogEvent.success .frontEndConfigured "Front end configured").notes
        [("sources", toString sources.length), ("source_level", level.tag)])
      let (registry, front) ← ofSources frontEnd tree reading sources front
      let requested :=
        (sources.filter (·.origin == SourceOrigin.requested)).map SourceFile.file
      return (.ok { level, registry, requested, globalErrors := frontEnd.globalErrors front },
        front)

end Batch

end JavaOutline
