/-
**Preferences.**

How sources are read and how the log is written can be set in the environment and in a preferences
file.  What the file does not say is taken from the environment, and what the environment does not
say, or says in a form that cannot be read, has a standard value.

Main definitions:

* `ReadingPreferences`, `LoggingPreferences`, `Preferences` — the preferences;
* `Preferences.ofEnvironment` — from the environment;
* `Preferences.ofToml?`, `Preferences.load` — from a file;
* `Preferences.journal`, `Preferences.format` — what they say about the log;
* `Preferences.json` — the preferences as JSON.
-/

import JavaOutline.ConfigError
import JavaOutline.FileTree
import JavaOutline.Log.Journal
import JavaOutline.Text.Blank
import JavaOutline.Toml.Document

set_option autoImplicit false

namespace JavaOutline

/-! ### Preferences -/

/-- The number of units that are parsed in full when nothing is said. -/
def standardParseThreshold : Nat := 1000

/-- The most sources that are read at a time. -/
def maxReadThreads : Nat := 16

/-- How sources are read. -/
structure ReadingPreferences where
  /-- Whether sources are never read ahead. -/
  singleThread : Bool := false
  /-- How many sources are read at a time. -/
  readThreads : Nat := 4
  /-- How many units are parsed in full before bodies are passed over. -/
  parseThreshold : Nat := standardParseThreshold
deriving DecidableEq, Repr, Inhabited

/-- How the log is written. -/
structure LoggingPreferences where
  /-- Whether events are printed as JSON. -/
  structured : Bool := false
  /-- Whether events are printed at all. -/
  console : Bool := true
  /-- The least severe level that is printed. -/
  least : LogLevel := .info
  /-- Whether a failed run ends with a report on what was collected. -/
  summary : Bool := true
  /-- Whether events inside a unit name its file. -/
  fileContext : Bool := true
deriving DecidableEq, Repr, Inhabited

/-- All preferences. -/
structure Preferences where
  reading : ReadingPreferences := {}
  logging : LoggingPreferences := {}
deriving DecidableEq, Repr, Inhabited

/-- The number of sources that are really read at a time: at least one, and not too many. -/
def ReadingPreferences.effectiveThreads (p : ReadingPreferences) : Nat :=
  max 1 (min p.readThreads maxReadThreads)

/-! ### The environment -/

/-- Variables with their values. -/
abbrev Environment : Type := List (String × String)

/-- The value of a variable as it is read, or a standard value. -/
def Environment.getOr {α : Type} (environment : Environment) (read? : String → Option α)
    (name : String) (standard : α) : α :=
  ((environment.lookup name).bind fun value => read? (Text.trim value)).getD standard

/-- A truth value. -/
def truth? (text : String) : Option Bool :=
  if text = "true" then some true else if text = "false" then some false else none

namespace Preferences

/-- The variables that are looked at. -/
def variableNames : List String :=
  ["JTRAV_USE_SINGLE_THREAD", "JTRAV_READ_THREADS", "JTRAV_PARSE_THRESHOLD",
   "JTRAV_LOGGING_USE_STRUCTURED", "JTRAV_LOGGING_ENABLE_CONSOLE", "JTRAV_LOGGING_MIN_LEVEL",
   "JTRAV_LOGGING_CARGO_STYLE", "JTRAV_LOGGING_INCLUDE_FILE_CONTEXT"]

/-- The preferences that the environment asks for. -/
def ofEnvironment (environment : Environment) : Preferences where
  reading :=
    { singleThread := environment.getOr truth? "JTRAV_USE_SINGLE_THREAD" false
      readThreads := environment.getOr Text.word64? "JTRAV_READ_THREADS" 4
      parseThreshold :=
        environment.getOr Text.word64? "JTRAV_PARSE_THRESHOLD" standardParseThreshold }
  logging :=
    { structured := environment.getOr truth? "JTRAV_LOGGING_USE_STRUCTURED" false
      console := environment.getOr truth? "JTRAV_LOGGING_ENABLE_CONSOLE" true
      least := environment.getOr LogLevel.ofText? "JTRAV_LOGGING_MIN_LEVEL" .info
      summary := environment.getOr truth? "JTRAV_LOGGING_CARGO_STYLE" true
      fileContext := environment.getOr truth? "JTRAV_LOGGING_INCLUDE_FILE_CONTEXT" true }

end Preferences

/-! ### Values of a file -/

namespace Toml

/-- A truth value. -/
def truth? : Toml → Option Bool
  | .boolean value => some value
  | _ => none

/-- A number that is not negative. -/
def count? : Toml → Option Nat
  | .integer value => if 0 ≤ value then some value.toNat else none
  | _ => none

/-- The level that a word names, in lower case. -/
def levelWord? (word : String) : Option LogLevel :=
  match word with
  | "error" => some .error
  | "warning" => some .warning
  | "info" => some .info
  | "debug" => some .debug
  | _ => none

/-- Whether a value holds nothing. -/
def isVoid : Toml → Bool
  | .array items => items.isEmpty
  | .table _ entries => entries.isEmpty
  | .tables items => items.isEmpty
  | _ => false

/-- A level: its word, or a table with its word as the only key and nothing under it. -/
def level? : Toml → Option LogLevel
  | .string word => levelWord? word
  | .table _ [(word, value)] => if value.isVoid then levelWord? word else none
  | _ => none

/-- The values of a record whose fields have the given names.  A table gives them by name and an
array by place; a date gives none. -/
def fields? (names : List String) : Toml → Option (List (String × Toml))
  | .table _ entries => some entries
  | .array items => some (names.zip items)
  | .tables items => some (names.zip (items.map (Toml.table .headed)))
  | .date => some []
  | _ => none

/-- The value of a field as it is read, or what it has without one. -/
def fieldOr? {α : Type} (entries : List (String × Toml)) (read? : Toml → Option α) (name : String)
    (standard : α) : Option α :=
  match entries.lookup name with
  | none => some standard
  | some value => read? value

end Toml

namespace ReadingPreferences

/-- The preferences that a value of a file asks for, where others fill in what is missing. -/
def ofToml? (standard : ReadingPreferences) (value : Toml) : Option ReadingPreferences := do
  let entries ← value.fields? ["use_single_thread", "read_threads", "parse_threshold"]
  let singleThread ← Toml.fieldOr? entries Toml.truth? "use_single_thread" standard.singleThread
  let readThreads ← Toml.fieldOr? entries Toml.count? "read_threads" standard.readThreads
  let parseThreshold ←
    Toml.fieldOr? entries Toml.count? "parse_threshold" standard.parseThreshold
  return { singleThread, readThreads, parseThreshold }

end ReadingPreferences

namespace LoggingPreferences

/-- The preferences that a value of a file asks for, where others fill in what is missing. -/
def ofToml? (standard : LoggingPreferences) (value : Toml) : Option LoggingPreferences := do
  let entries ← value.fields?
    ["use_structured_logging", "enable_console_logging", "min_log_level",
     "enable_cargo_style_output", "include_file_context"]
  let structured ← Toml.fieldOr? entries Toml.truth? "use_structured_logging" standard.structured
  let console ← Toml.fieldOr? entries Toml.truth? "enable_console_logging" standard.console
  let least ← Toml.fieldOr? entries Toml.level? "min_log_level" standard.least
  let summary ← Toml.fieldOr? entries Toml.truth? "enable_cargo_style_output" standard.summary
  let fileContext ←
    Toml.fieldOr? entries Toml.truth? "include_file_context" standard.fileContext
  return { structured, console, least, summary, fileContext }

end LoggingPreferences

/-! ### Files -/

/-- Why preferences could not be loaded. -/
inductive PreferencesError where
  | unreadable (path : String) (error : FileError)
  | malformed (path : String)
deriving DecidableEq, Repr, Inhabited

/-- The error as an error of the configuration. -/
def PreferencesError.toConfigError : PreferencesError → ConfigError
  | .unreadable path error =>
      .preferences ("Failed to read preferences file '" ++ path ++ "': " ++ error.message)
  | .malformed path =>
      .preferences ("Invalid preferences file '" ++ path ++ "': TOML parse error")

namespace Preferences

/-- The preferences that a document asks for, where others fill in what is missing. -/
def ofToml? (standard : Preferences) (text : String) : Option Preferences := do
  let entries ← Toml.ofText? text
  let reading ←
    Toml.fieldOr? entries (ReadingPreferences.ofToml? standard.reading) "front_end"
      standard.reading
  let logging ←
    Toml.fieldOr? entries (LoggingPreferences.ofToml? standard.logging) "logging"
      standard.logging
  return { reading, logging }

/-- The preferences that a file asks for, where others fill in what is missing. -/
def load (standard : Preferences) (tree : FileTree) (path : String) :
    Except PreferencesError Preferences :=
  match tree.read path with
  | .error e => .error (.unreadable path e)
  | .ok text =>
      match standard.ofToml? text with
      | some found => .ok found
      | none => .error (.malformed path)

/-! ### What they say about the log -/

/-- The journal that the preferences ask for. -/
def journal (p : Preferences) : Journal where
  gate := if p.logging.console then { least := p.logging.least } else .silent
  fileContext := p.logging.fileContext

/-- The form in which events are printed. -/
def format (p : Preferences) : ConsoleFormat := if p.logging.structured then .json else .text

/-! ### JSON -/

/-- The word for a level in a preferences file. -/
def levelWord : LogLevel → String
  | .error => "error"
  | .warning => "warning"
  | .info => "info"
  | .debug => "debug"

/-- The preferences under the names that they have in a file. -/
def json (p : Preferences) : JsonValue :=
  .object
    [⟨"front_end", .object
       [⟨"use_single_thread", .bool p.reading.singleThread⟩,
        ⟨"read_threads", .number p.reading.readThreads⟩,
        ⟨"parse_threshold", .number p.reading.parseThreshold⟩]⟩,
     ⟨"logging", .object
       [⟨"use_structured_logging", .bool p.logging.structured⟩,
        ⟨"enable_console_logging", .bool p.logging.console⟩,
        ⟨"min_log_level", .text (levelWord p.logging.least)⟩,
        ⟨"enable_cargo_style_output", .bool p.logging.summary⟩,
        ⟨"include_file_context", .bool p.logging.fileContext⟩]⟩]

end Preferences

/-- The profile that the limits of this build come from. -/
def buildInfo : String := "Generated from config/development.toml"

/-- Whether the limits of the log fit each other. -/
def limitsFit : Bool :=
  100 ≤ MemoryLog.bound && MemoryLog.bound ≤ 100000 && eventsPerFile ≤ MemoryLog.bound &&
    eventsPerFile ≤ eventsPerBatch

/-- The limits of the log fit each other. -/
theorem limitsFit_eq : limitsFit = true := by decide

end JavaOutline
