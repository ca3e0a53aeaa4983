/-
**Options of the front end.**

The command line of the front end, after the verbosity flags are gone: options with or without a
value, and the sources of the batch in the order in which they are named.

Main definitions:

* `Options` — the options, with the values they have when nothing is said;
* `Options.valued?`, `Options.plain` — the effect of options that take a value, and of the other
  arguments;
* `Options.parse` — the options that a command line asks for;
* `Options.json` — the options as JSON.
-/

import JavaOutline.ConfigError
import JavaOutline.JsonValue
import JavaOutline.LanguageLevel
import JavaOutline.Text.Affix
import JavaOutline.Text.Decimal

set_option autoImplicit false

namespace JavaOutline

/-- The most problems kept for a unit when nothing is said. -/
def standardProblemLimit : Nat := 100

/-- What the front end is asked to do. -/
structure Options where
  sourceLevel : LanguageLevel := .standard
  targetLevel : Option String := none
  /-- Where sources are looked for that are not named. -/
  sourcepath : List String := []
  classpath : List String := []
  encoding : String := "UTF-8"
  /-- Where class files go, if they go anywhere. -/
  outputDirectory : Option String := none
  reportWarnings : Bool := true
  debugInfo : Bool := false
  proceedOnError : Bool := false
  recoverStatements : Bool := true
  generateClassFiles : Bool := true
  /-- The most problems kept for a unit. -/
  maxProblems : Nat := standardProblemLimit
  /-- The sources of the batch, as they are written and in their order. -/
  files : List String := []
deriving DecidableEq, Repr, Inhabited

namespace Options

/-! ### Values -/

/-- The paths of a list with colons between them; empty ones do not count. -/
def splitPaths (value : String) : List String :=
  ((value.toList.splitOn ':').filter (!·.isEmpty)).map String.ofList

/-- Whether a name stands for UTF-8, in upper or lower case. -/
def isUtf8Name (name : String) : Bool :=
  ["utf-8", "utf8"].contains (String.ofList (name.toList.map Char.toLower))

/-- The options with the level that a value names. -/
def withLevel (options : Options) (option value : String) : Except ConfigError Options :=
  match LanguageLevel.ofOption? value with
  | some sourceLevel => .ok { options with sourceLevel }
  | none => .error (.invalidValue option value)

/-- The options with the encoding that a value names. -/
def withEncoding (options : Options) (value : String) : Except ConfigError Options :=
  if isUtf8Name value then .ok { options with encoding := value }
  else .error (.unsupportedEncoding value)

/-- The options with the problem limit that a value names, a number above zero. -/
def withProblemLimit (options : Options) (option value : String) : Except ConfigError Options :=
  match (Text.word64? value).filter (0 < ·) with
  | some maxProblems => .ok { options with maxProblems }
  | none => .error (.invalidValue option value)

/-! ### Arguments -/

/-- The effect of an option that takes a value, if it is one. -/
def valued? (options : Options) (option : String) :
    Option (String → Except ConfigError Options) :=
  match option with
  | "-source" => some (options.withLevel option)
  | "-target" => some fun value => .ok { options with targetLevel := some value }
  | "-sourcepath" => some fun value => .ok { options with sourcepath := splitPaths value }
  | "-classpath" => some fun value => .ok { options with classpath := splitPaths value }
  | "-cp" => some fun value => .ok { options with classpath := splitPaths value }
  | "-encoding" => some options.withEncoding
  | "-d" => some fun value =>
      .ok { options with outputDirectory := if value = "none" then none else some value }
  | "-maxProblems" => some (options.withProblemLimit option)
  | _ => none

/-- The effect of an argument that stands by itself. -/
def plain (options : Options) (argument : String) : Except ConfigError Options :=
  if argument = "-nowarn" then .ok { options with reportWarnings := false }
  else if argument = "-proceedOnError" then .ok { options with proceedOnError := true }
  else if argument = "-g" then .ok { options with debugInfo := true }
  else if Text.beginsWith argument "-g:" then
    .ok { options with debugInfo := argument != "-g:none" }
  else if Text.beginsWith argument "-warn:" then .ok options
  else if Text.beginsWith argument "-1." then
    options.withLevel argument (String.ofList (argument.toList.drop 1))
  else if Text.endsWith argument ".java" && !Text.beginsWith argument "-" then
    .ok { options with files := options.files ++ [argument] }
  else .error (.unknownOption argument)

/-- The options that a command line adds to others. -/
def parseFrom (options : Options) : List String → Except ConfigError Options
  | [] => .ok options
  | argument :: rest =>
      match options.valued? argument with
      | none =>
          match options.plain argument with
          | .ok next => next.parseFrom rest
          | .error e => .error e
      | some effect =>
          match rest with
          | [] => .error (.missingValue argument)
          | value :: rest =>
              match effect value with
              | .ok next => next.parseFrom rest
              | .error e => .error e

/-- The options that a command line asks for. -/
def parse (arguments : List String) : Except ConfigError Options := parseFrom {} arguments

/-! ### JSON -/

/-- The options as an object. -/
def json (options : Options) : JsonValue :=
  .object
    [⟨"source_level", .text options.sourceLevel.tag⟩,
     ⟨"target_level", .optional .text options.targetLevel⟩,
     ⟨"sourcepath", .texts options.sourcepath⟩, ⟨"classpath", .texts options.classpath⟩,
     ⟨"encoding", .text options.encoding⟩,
     ⟨"output_dir", .optional .text options.outputDirectory⟩,
     ⟨"report_warnings", .bool options.reportWarnings⟩, ⟨"debug_info", .bool options.debugInfo⟩,
     ⟨"proceed_on_error", .bool options.proceedOnError⟩,
     ⟨"perform_statements_recovery", .bool options.recoverStatements⟩,
     ⟨"generate_class_files", .bool options.generateClassFiles⟩,
     ⟨"max_problems_per_unit", .number options.maxProblems⟩, ⟨"files", .texts options.files⟩]

end Options

end JavaOutline
