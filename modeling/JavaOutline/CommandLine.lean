/-
**The command line.**

The tool has options of its own, which end at the first argument that is none of them; this one and
all behind it are arguments of the front end.  Two dashes end the options too.  An option with a
value has it behind an equals sign or in the next argument, and no option is given twice.

Main definitions:

* `CommandFlag`, `CommandOption`, `CommandWord` — how a single argument is read;
* `CommandLine`, `CommandRequest`, `CommandLine.parse` — reading a command line;
* `CommandLine.preferences`, `CommandLine.inputs` — the preferences of a run, and what it reads;
* `Surroundings`, `CommandResult`, `CommandLine.execute`, `command` — carrying it out.

Main results:

* `CommandLine.parse_arguments` — arguments that begin with none of the options are all for the
  front end.
-/

import JavaOutline.Builder.Tree
import JavaOutline.FrontEnd.Sources
import JavaOutline.Run
import JavaOutline.Terminal

set_option autoImplicit false

namespace JavaOutline

/-! ### Single arguments -/

/-- The options without a value. -/
inductive CommandFlag where
  | structuredLogs
  | singleThread
  | help
  | version
deriving DecidableEq, Repr, Inhabited

/-- The options with a value. -/
inductive CommandOption where
  | emitTree
  | readThreads
  | verboseStyle
  | config
deriving DecidableEq, Repr, Inhabited

/-- The flag that a name stands for. -/
def CommandFlag.ofName? : String → Option CommandFlag
  | "structured-logs" => some structuredLogs
  | "single-thread" => some singleThread
  | "help" => some help
  | "version" => some version
  | _ => none

/-- The option that a name stands for. -/
def CommandOption.ofName? : String → Option CommandOption
  | "emit-ast" => some emitTree
  | "read-threads" => some readThreads
  | "verbose-style" => some verboseStyle
  | "config" => some config
  | _ => none

/-- The flag that a letter stands for. -/
def CommandFlag.ofLetter? : Char → Option CommandFlag
  | 'h' => some help
  | 'V' => some version
  | _ => none

/-- How an argument is read where options may stand. -/
inductive CommandWord where
  /-- Two dashes. -/
  | escape
  | flag (flag : CommandFlag)
  /-- An option, with its value if that is in the same argument. -/
  | option (option : CommandOption) (value : Option String)
  /-- A flag with a value that it cannot have. -/
  | unneededValue
  /-- None of the tool's own arguments. -/
  | other
deriving DecidableEq, Repr, Inhabited

namespace CommandWord

/-- An argument behind two dashes. -/
def ofLong (text : List Char) : CommandWord :=
  let name := String.ofList (text.takeWhile (· != '='))
  let value := (text.dropWhile (· != '=')).tail?.map String.ofList
  match CommandFlag.ofName? name, CommandOption.ofName? name with
  | some f, _ => if value.isSome then unneededValue else flag f
  | none, some o => option o value
  | none, none => other

/-- Letters behind one dash; all of them have to be flags, and the first one counts because every
flag that has a letter ends the command line. -/
def ofShort (letters : List Char) : CommandWord :=
  match letters.mapM CommandFlag.ofLetter? with
  | some (f :: _) => flag f
  | some [] | none => other

/-- How an argument is read. -/
def ofArgument (argument : String) : CommandWord :=
  match argument.toList with
  | ['-', '-'] => escape
  | '-' :: '-' :: text => ofLong text
  | '-' :: letters => ofShort letters
  | _ => other

end CommandWord

/-! ### Command lines -/

/-- What a command line asks for. -/
structure CommandLine where
  /-- The file that the trees are written to. -/
  emitTree : Option String := none
  structuredLogs : Bool := false
  singleThread : Bool := false
  readThreads : Option Nat := none
  /-- How the verbosity flag carries its level. -/
  flagForm : Option FlagForm := none
  /-- The preferences file. -/
  config : Option String := none
  /-- The arguments of the front end. -/
  arguments : List String := []
deriving DecidableEq, Repr, Inhabited

/-- What is to be done. -/
inductive CommandRequest where
  | run (line : CommandLine)
  | help
  | version
  | usageError
deriving DecidableEq, Repr, Inhabited

namespace CommandLine

/-- A path, which may not be empty. -/
def path? (value : String) : Option String := if value.isEmpty then none else some value

/-- The form of the verbosity flag that a word names. -/
def flagForm? : String → Option FlagForm
  | "equals" => some .equals
  | "separate" => some .separate
  | _ => none

/-- A value for something that has none yet. -/
def once {α : Type} (old new : Option α) : Option α :=
  match old with
  | some _ => none
  | none => new

/-- The command line with the value of an option, if it can have that value and has none yet. -/
def set (line : CommandLine) (option : CommandOption) (value : String) : Option CommandLine :=
  match option with
  | .emitTree => (once line.emitTree (path? value)).map ({ line with emitTree := some · })
  | .readThreads =>
      (once line.readThreads (Text.word64? value)).map ({ line with readThreads := some · })
  | .verboseStyle => (once line.flagForm (flagForm? value)).map ({ line with flagForm := some · })
  | .config => (once line.config (path? value)).map ({ line with config := some · })

/-- Reads the rest of a command line, where some options were read. -/
def parseFrom (line : CommandLine) : List String → CommandRequest
  | [] => .usageError
  | argument :: rest =>
      match CommandWord.ofArgument argument with
      | .other => .run { line with arguments := argument :: rest }
      | .escape => if rest.isEmpty then .usageError else .run { line with arguments := rest }
      | .unneededValue => .usageError
      | .flag .help => .help
      | .flag .version => .version
      | .flag .structuredLogs =>
          if line.structuredLogs then .usageError
          else parseFrom { line with structuredLogs := true } rest
      | .flag .singleThread =>
          if line.singleThread then .usageError
          else parseFrom { line with singleThread := true } rest
      | .option o (some value) =>
          match line.set o value with
          | none => .usageError
          | some line => parseFrom line rest
      | .option o none =>
          match rest with
          | [] => .usageError
          | value :: rest =>
              -- What is read as an option is no value of another one.
              if CommandWord.ofArgument value ≠ .other then .usageError
              else
                match line.set o value with
                | none => .usageError
                | some line => parseFrom line rest

/-- Reads a command line. -/
def parse (arguments : List String) : CommandRequest := parseFrom {} arguments

/-- Arguments that begin with none of the options are all for the front end. -/
theorem parse_arguments {argument : String} {rest : List String}
    (h : CommandWord.ofArgument argument = .other) :
    parse (argument :: rest) = .run { arguments := argument :: rest } := by
  simp [parse, parseFrom, h]

end CommandLine

/-! ### Carrying it out -/

/-- What surrounds a command. -/
structure Surroundings where
  tree : FileTree := {}
  environment : Environment := []
  /-- The number of processors. -/
  processors : Nat := 1
  /-- The time that log lines carry. -/
  time : String := ""

/-- What a command leaves behind. -/
structure CommandResult where
  status : Nat
  printed : Console := {}
  tree : FileTree

/-- The name and the version of the tool. -/
def versionLine : String := "jtrav 0.1.0"

/-- How the tool is used. -/
def usageText : String :=
  "\n".intercalate
    ["Translate Java compilation units into a foreign AST",
     "",
     "Usage: jtrav [OPTIONS] <ARGS>...",
     "",
     "Options:",
     "      --emit-ast <FILE>         Write the translated units to this file as JSON",
     "      --structured-logs         Emit structured JSON log events",
     "      --single-thread           Never prefetch sources on worker threads",
     "      --read-threads <N>        Prefetch worker count (defaults to the number of CPUs)",
     "      --verbose-style <STYLE>   How the verbosity flag carries its level",
     "      --config <FILE>           Runtime preferences file (TOML)",
     "  -h, --help                    Print help",
     "  -V, --version                 Print version"]

namespace CommandLine

/-- The preferences of a run: from the file or else from the environment, where the options of the
command line come first. -/
def preferences (line : CommandLine) (around : Surroundings) :
    Except PreferencesError Preferences := do
  let standard := Preferences.ofEnvironment around.environment
  let found ←
    match line.config with
    | some path => standard.load around.tree path
    | none =>
        pure { standard with
          reading := { standard.reading with readThreads := around.processors } }
  return {
    reading :=
      { found.reading with
        singleThread := line.singleThread || found.reading.singleThread
        readThreads := line.readThreads.getD found.reading.readThreads }
    logging :=
      { found.logging with structured := line.structuredLogs || found.logging.structured } }

/-- What the verbosity flag looks like. -/
def flagStyle (line : CommandLine) : FlagStyle := { form := line.flagForm.getD .equals }

/-- The files that a run is given by name, and the directories in which it looks for more. -/
def inputs (line : CommandLine) : List String × List String :=
  let named := line.config.toList
  match (({} : Session).filterArguments line.flagStyle line.arguments).value.1 with
  | .error _ => (named, [])
  | .ok remaining =>
      match Options.parse remaining with
      | .error _ => (named, [])
      | .ok options => (named ++ options.files, options.sourcepath)

/-- Writes the trees to the file that the command line names, if it names one. -/
def emit (line : CommandLine) (trees : TreeBuilder) (tree : FileTree) :
    Except (String × FileError) FileTree :=
  match line.emitTree with
  | none => .ok tree
  | some path =>
      match tree.write path trees.exported with
      | .ok tree => .ok tree
      | .error e => .error (path, e)

/-- Prints how a run went that gave an outcome, behind what was printed before. -/
def finish (line : CommandLine) (around : Surroundings) (terminal : Terminal) (printed : Console)
    (outcome : Outcome) (trees : TreeBuilder) : CommandResult :=
  let printed := printed ++ Console.line outcome.batchReport
  match line.emit trees around.tree with
  | .error (path, e) =>
      let (events, _) := terminal.print around.time
        (logRunError .exportFailed e.message [("path", path)]).log
      { status := 1
        printed := printed ++ events ++
          Console.errorLine ("Failed to write " ++ path ++ ": " ++ e.message)
        tree := around.tree }
  | .ok tree =>
      { status := outcome.exitStatus
        printed := if outcome.failed then printed ++ terminal.closing else printed
        tree }

/-- Carries out a run. -/
def execute (line : CommandLine) (around : Surroundings) : CommandResult :=
  match line.preferences around with
  | .error e =>
      { status := 1
        printed := Console.errorLine ("Error: " ++ e.toConfigError.message)
        tree := around.tree }
  | .ok preferences =>
      let settings : RunSettings := { flag := line.flagStyle, reading := preferences.reading }
      let start : RunState SourceFrontEnd TreeBuilder := { front := {}, builder := {} }
      let logged := do
        loggingStarted
        run (sourceFrontEnd around.tree) treeBuilder around.tree settings line.arguments start
      let (printed, terminal) := preferences.terminal.print around.time logged.log
      match logged.value with
      | (.ok outcome, after) => line.finish around terminal printed outcome after.builder
      | (.error e, _) =>
          { status := e.exitStatus
            printed := printed ++ Console.errorLine e.message ++ terminal.closing
            tree := around.tree }

end CommandLine

/-- The status of a command that cannot be understood. -/
def usageStatus : Nat := 2

/-- Does what a command line asks for. -/
def command (around : Surroundings) (arguments : List String) : CommandResult :=
  match CommandLine.parse arguments with
  | .run line => line.execute around
  | .help => { status := 0, printed := Console.line usageText, tree := around.tree }
  | .version => { status := 0, printed := Console.line versionLine, tree := around.tree }
  | .usageError =>
      { status := usageStatus
        printed := Console.errorLine
          "error: the command line cannot be understood\n\nFor more information, try '--help'."
        tree := around.tree }

end JavaOutline
