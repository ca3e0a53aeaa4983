/-
**The front end over source files.**

It parses sources into outlines, keeps the types of the batch, and brings in the sources that units
refer to from the sourcepath.  Types are not checked: the problems it finds are syntax errors,
imports that cannot be resolved, types and members that are declared twice, and public types in a
file of another name.

Main definitions:

* `SourceFrontEnd` — the state;
* `SourceFrontEnd.findOnSourcepath` — the file that may declare a type;
* `SourceFrontEnd.parse`, `SourceFrontEnd.bind`, `SourceFrontEnd.process` — the work on one unit;
* `SourceFrontEnd.resolve`, `SourceFrontEnd.complete` — the work on a batch;
* `sourceFrontEnd` — the front end over a tree of files.
-/

import JavaOutline.FrontEnd
import JavaOutline.FrontEnd.Checks
import JavaOutline.FrontEnd.Reference
import JavaOutline.Outline.Deferred

set_option autoImplicit false

namespace JavaOutline

/-- The state of the front end over source files. -/
structure SourceFrontEnd where
  options : Options := {}
  types : TypeIndex := {}
  /-- The number of sources that could not be read. -/
  globalErrors : Nat := 0
  /-- The size of the largest source that is read. -/
  sizeLimit : Nat := standardSizeLimit
deriving Inhabited

namespace SourceFrontEnd

/-! ### The sourcepath -/

/-- The file below a root for the parts of a qualified name. -/
def pathBelow (root : String) (parts : List String) : String :=
  Path.push (parts.dropLast.foldl Path.push root) (parts.getLast?.getD "" ++ ".java")

/-- The files that may declare a type, in the order in which they are tried: below every root, and
with the longest path first, so that a type of its own is found before a type around it. -/
def possiblePaths (roots : List String) (name : String) : List String :=
  let parts := nameParts name
  roots.flatMap fun root =>
    (List.range parts.length).reverse.map fun n => pathBelow root (parts.take (n + 1))

/-- The first file on the sourcepath that may declare a type. -/
def findOnSourcepath (tree : FileTree) (front : SourceFrontEnd) (name : String) : Option String :=
  (possiblePaths front.options.sourcepath name).find? tree.isFile

/-- Whether a package is a directory on the sourcepath. -/
def packageOnSourcepath (tree : FileTree) (front : SourceFrontEnd) (package : String) : Bool :=
  front.options.sourcepath.any fun root =>
    tree.isDirectory ((nameParts package).foldl Path.push root)

/-! ### One unit -/

/-- Reads the command line. -/
def configure (arguments : List String) (front : SourceFrontEnd) :
    Logged (Except ConfigError (List SourceFile) × SourceFrontEnd) :=
  match Options.parse arguments with
  | .error e => pure (.error e, front)
  | .ok options =>
      pure (.ok (options.files.map fun file => { file, origin := .requested }),
        { front with options, types := {}, globalErrors := 0 })

/-- The report with syntax errors added. -/
def recordSyntaxErrors (report : UnitReport) (errors : List SyntaxError) : UnitReport :=
  errors.foldl (fun report e => report.recordSyntaxError e.message (some e.span)) report

/-- The report on a source after it was parsed. -/
def reportParse (report : UnitReport) (parsed : Parse) : UnitReport :=
  let found := recordSyntaxErrors { report with separators := parsed.separators } parsed.errors
  match parsed.outline.package with
  | some package => { found with packageParts := some (nameParts package.name) }
  | none => found

/-- Parses a source.  One that cannot be read is an error of the batch. -/
def parse (tree : FileTree) (source : SourceFile) (report : UnitReport) (diet : Bool)
    (front : SourceFrontEnd) : Logged (CompilationUnit × SourceFrontEnd) :=
  match source.contents tree front.sizeLimit with
  | .error e => do
      Logged.tell ((LogEvent.error e.code e.message).note "file" source.file)
      return (CompilationUnit.make source.file source.origin report none none,
        { front with globalErrors := front.globalErrors + 1 })
  | .ok text =>
      let parsed := Outline.parse text diet
      pure (CompilationUnit.make source.file source.origin (reportParse report parsed) (some text)
        (some parsed.outline), front)

/-- The problem of a type that is declared already. -/
def repeatedType (name : String) (earlier : TypeBinding) (span : Span) : Problem where
  code := .duplicateType
  message := "The type " ++ name ++ " is already defined in " ++ earlier.file
  span := some span

/-- Enters types that a file declares: the problems found, and the index afterwards. -/
def defineAll (file : String) : List (String × Span) → TypeIndex → List Problem × TypeIndex
  | [], types => ([], types)
  | (name, span) :: declared, types =>
      match types.define { name, file, span } with
      | .ok types => defineAll file declared types
      | .error earlier =>
          let (problems, types) := defineAll file declared types
          (repeatedType name earlier span :: problems, types)

/-- Enters the types of a unit. -/
def bind (unit : CompilationUnit) (front : SourceFrontEnd) : CompilationUnit × SourceFrontEnd :=
  match unit.outline with
  | none => (unit, front)
  | some outline =>
      let (problems, types) := defineAll unit.file outline.declaredTypes front.types
      ({ unit.recordAll problems with state := .bound }, { front with types })

/-- The unit with its bodies parsed, as far as its outline and its text are at hand. -/
def completeBodies (unit : CompilationUnit) : CompilationUnit :=
  match unit.outline, unit.source with
  | some outline, some source =>
      let (completed, errors) := outline.complete source
      { unit with outline := some completed, report := recordSyntaxErrors unit.report errors }
  | _, _ => unit

/-- The unit after it was checked. -/
def check (unit : CompilationUnit) : CompilationUnit :=
  match unit.outline with
  | some outline => unit.recordAll (outline.memberProblems (Path.fileStem unit.file))
  | none => unit

/-- Parses the bodies of a unit and checks it. -/
def process (unit : CompilationUnit) (index : Nat) : Logged CompilationUnit := do
  let checked := check (completeBodies unit)
  Logged.tell ((LogEvent.success .unitProcessed "Unit processed").notes
    [("file", unit.file), ("index", toString index),
     ("errors", toString checked.report.errorCount)])
  return checked

/-! ### The batch -/

/-- A batch while it is being completed. -/
structure Completion where
  front : SourceFrontEnd
  registry : Registry

/-- Adds a file of the sourcepath to the batch, unless it is there. -/
def loadClosure (tree : FileTree) (path : String) (state : Completion) : Logged Completion :=
  if state.registry.contains path then pure state
  else do
    let size := state.registry.size
    let report : UnitReport :=
      { file := path, index := size, knownUnits := size + 1
        maxProblems := state.front.options.maxProblems }
    let (parsed, front) ← parse tree { file := path, origin := .closure } report true state.front
    let (unit, front) := bind parsed front
    Logged.tell ((LogEvent.debug "Closure unit added from sourcepath").notes
      [("file", path), ("ordinal", toString size)])
    return { front, registry := (state.registry.add unit).2 }

/-- Tries qualified names one after another: the file that may declare the type is added, and the
search ends when the type is known. -/
def searchSourcepath (tree : FileTree) : List String → Completion → Logged (Bool × Completion)
  | [], state => pure (false, state)
  | candidate :: candidates, state =>
      match state.front.findOnSourcepath tree candidate with
      | none => searchSourcepath tree candidates state
      | some path => do
          let next ← loadClosure tree path state
          if next.front.types.knowsType candidate then return (true, next)
          else searchSourcepath tree candidates next

/-- Whether a reference needs no search: a type or a package for it is at hand. -/
def isKnown (tree : FileTree) (front : SourceFrontEnd) (reference : Reference) : Bool :=
  reference.candidates.any front.types.knowsType ||
    reference.package.any fun package =>
      front.types.knowsPackage package || front.packageOnSourcepath tree package

/-- Resolves a reference, and says whether that succeeded. -/
def resolve (tree : FileTree) (reference : Reference) (state : Completion) :
    Logged (Bool × Completion) :=
  if isKnown tree state.front reference then pure (true, state)
  else searchSourcepath tree reference.candidates state

/-- The problem of an import that cannot be resolved. -/
def unresolvedImport (reference : Reference) : Problem where
  code := .unresolvedImport
  message := "The import " ++ reference.name ++ " cannot be resolved"
  span := some reference.span

/-- Whether a reference that was not resolved is a problem.  What the platform or a classpath may
provide is none, and neither is a supertype. -/
def mustResolve (options : Options) (reference : Reference) : Bool :=
  reference.isImport && !isPlatformName reference.name && options.classpath.isEmpty

/-- Resolves references one after another, and gives the problems found. -/
def resolveAll (tree : FileTree) : List Reference → Completion → Logged (List Problem × Completion)
  | [], state => pure ([], state)
  | reference :: references, state => do
      let (resolved, next) ← resolve tree reference state
      let (problems, last) ← resolveAll tree references next
      if !resolved && mustResolve next.front.options reference then
        return (unresolvedImport reference :: problems, last)
      else return (problems, last)

/-- Resolves what the unit in a slot refers to. -/
def completeUnit (tree : FileTree) (index : Nat) (state : Completion) : Logged Completion :=
  match (state.registry.get? index).bind CompilationUnit.outline with
  | none => pure state
  | some outline => do
      let (problems, next) ← resolveAll tree outline.references state
      return { next with registry := next.registry.modify index (·.recordAll problems) }

/-- Completes the units from a slot on, those included that are added on the way; at most so many
units as there is fuel for. -/
def completeFrom (tree : FileTree) : Nat → Nat → Completion → Logged Completion
  | 0, _, state => pure state
  | fuel + 1, index, state =>
      if index < state.registry.size then do
        let next ← completeUnit tree index state
        completeFrom tree fuel (index + 1) next
      else pure state

/-- The files that may declare what an outline refers to. -/
def filesAround (roots : List String) (outline : Outline) : List String :=
  outline.references.flatMap fun reference => reference.candidates.flatMap (possiblePaths roots)

/-- The outlines that units of a batch can have in the end: those at hand, and those of all files. -/
def outlinesAround (tree : FileTree) (registry : Registry) : List Outline :=
  registry.units.filterMap CompilationUnit.outline ++
    tree.texts.map fun text => (Outline.parse text true).outline

/-- The most units that a batch can have in the end: a file is added at most once, and only if an
outline asks for it. -/
@[irreducible] def unitBound (tree : FileTree) (state : Completion) : Nat :=
  state.registry.size +
    ((outlinesAround tree state.registry).flatMap
      (filesAround state.front.options.sourcepath)).length

/-- Completes all units of a batch. -/
def complete (tree : FileTree) (registry : Registry) (front : SourceFrontEnd) :
    Logged (Registry × SourceFrontEnd) := do
  let start : Completion := { front, registry }
  let last ← completeFrom tree (unitBound tree start) 0 start
  return (last.registry, last.front)

end SourceFrontEnd

/-- The front end over a tree of files. -/
def sourceFrontEnd (tree : FileTree) : FrontEnd SourceFrontEnd where
  configure := SourceFrontEnd.configure
  options := SourceFrontEnd.options
  setOptions := fun options front => { front with options }
  parse := SourceFrontEnd.parse tree
  bind := fun unit front => pure (SourceFrontEnd.bind unit front)
  complete := SourceFrontEnd.complete tree
  process := fun unit index front => (·, front) <$> SourceFrontEnd.process unit index
  globalErrors := SourceFrontEnd.globalErrors

end JavaOutline
