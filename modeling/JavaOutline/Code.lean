/-
**Diagnostic codes.**

Every error has a code, and a table says for each code which stage raises it, how severe it is,
whether later units of a batch can still be handled, and what the reader should do.  Success codes
have no row.

Main definitions:

* `Code` — codes, with a name for each one in use;
* `Severity`, `Category`, `CodeInfo` — what a row says;
* `Code.table` — the rows;
* `Code.info?`, `Code.requiresHalt`, `Code.action` and the like — questions to the table, with the
  answers for codes without a row.

Main results:

* `Code.table_nodup` — no code has two rows.
-/

set_option autoImplicit false

namespace JavaOutline

/-- A code as it is printed. -/
structure Code where
  /-- The printed form. -/
  text : String
deriving DecidableEq, Repr, Inhabited

/-- How severe an error is. -/
inductive Severity where
  | critical
  | high
  | medium
  | low
deriving DecidableEq, Repr, Inhabited

/-- The word for a severity. -/
def Severity.word : Severity → String
  | .critical => "Critical"
  | .high => "High"
  | .medium => "Medium"
  | .low => "Low"

/-- The stage of a batch that raises an error. -/
inductive Category where
  | system
  | configuration
  | frontEnd
  | rebuilding
  | linkage
deriving DecidableEq, Repr, Inhabited

/-- The word for a stage. -/
def Category.word : Category → String
  | .system => "System"
  | .configuration => "Configuration"
  | .frontEnd => "FrontEnd"
  | .rebuilding => "Translation"
  | .linkage => "Linkage"

/-- What is known of a code. -/
structure CodeInfo where
  code : Code
  category : Category
  severity : Severity
  /-- Whether later units of the same batch can still be handled. -/
  recoverable : Bool
  description : String
  /-- What the reader should do. -/
  action : String
deriving DecidableEq, Repr, Inhabited

/-- An error that cannot be recovered from stops the batch. -/
def CodeInfo.requiresHalt (info : CodeInfo) : Bool := !info.recoverable

namespace Code

/-! ### The codes in use -/

/-- Something went wrong inside. -/
def internalError : Code := ⟨"ERR001"⟩
/-- Starting up failed. -/
def initializationFailure : Code := ⟨"ERR002"⟩
/-- The level of the verbosity flag is no number. -/
def invalidVerbosity : Code := ⟨"E010"⟩
/-- An option lacks its value. -/
def missingOptionValue : Code := ⟨"E011"⟩
/-- An option is not known. -/
def unknownOption : Code := ⟨"E012"⟩
/-- The encoding of the sources is not supported. -/
def unsupportedEncoding : Code := ⟨"E013"⟩
/-- The preferences could not be loaded. -/
def invalidPreferences : Code := ⟨"E014"⟩
/-- The value of an option is not valid. -/
def invalidOptionValue : Code := ⟨"E015"⟩
/-- A source could not be read. -/
def sourceReadFailure : Code := ⟨"E020"⟩
/-- A source is too large. -/
def sourceTooLarge : Code := ⟨"E021"⟩
/-- A source has a syntax error. -/
def syntaxError : Code := ⟨"E022"⟩
/-- An import cannot be resolved. -/
def unresolvedImport : Code := ⟨"E023"⟩
/-- A type is declared twice. -/
def duplicateType : Code := ⟨"E024"⟩
/-- A public type stands in a file of another name. -/
def publicTypeFileMismatch : Code := ⟨"E025"⟩
/-- A member is declared twice. -/
def duplicateMember : Code := ⟨"E026"⟩
/-- The front end found errors that belong to no unit. -/
def globalErrors : Code := ⟨"E027"⟩
/-- A unit has errors. -/
def unitDiagnostics : Code := ⟨"E028"⟩
/-- A unit could not be rebuilt. -/
def unitNotRebuilt : Code := ⟨"E040"⟩
/-- The rebuilt trees could not be written. -/
def exportFailed : Code := ⟨"E041"⟩
/-- An entry point of the builder is missing. -/
def linkageFailure : Code := ⟨"E050"⟩
/-- The host was used before it was set up. -/
def hostNotInitialized : Code := ⟨"E051"⟩
/-- The host passed an invalid argument. -/
def invalidHostArgument : Code := ⟨"E052"⟩
/-- The system is set up. -/
def systemInitialized : Code := ⟨"I001"⟩
/-- The front end knows its options. -/
def frontEndConfigured : Code := ⟨"I010"⟩
/-- The batch is parsed and bound. -/
def batchCompiled : Code := ⟨"I020"⟩
/-- A unit is processed. -/
def unitProcessed : Code := ⟨"I030"⟩
/-- A unit is rebuilt. -/
def unitRebuilt : Code := ⟨"I040"⟩
/-- The batch is rebuilt. -/
def batchRebuilt : Code := ⟨"I041"⟩
/-- The batch is accepted. -/
def batchAccepted : Code := ⟨"I050"⟩
/-- A warning without a code of its own. -/
def plainWarning : Code := ⟨"W000"⟩
/-- A message without a code of its own. -/
def plainInfo : Code := ⟨"I000"⟩
/-- A trace message. -/
def plainDebug : Code := ⟨"D000"⟩

/-! ### The table -/

/-- What is known of every error code. -/
def table : List CodeInfo :=
  [⟨internalError, .system, .critical, false, "Critical internal error",
      "File a bug report with the failing command line"⟩,
   ⟨initializationFailure, .system, .critical, false, "Initialization failure",
      "Check configuration and that initialization runs once per process"⟩,
   ⟨invalidVerbosity, .configuration, .high, false,
      "Verbosity flag payload is not a non-negative integer",
      "Pass the verbosity flag with an integer level, e.g. --verbose=2"⟩,
   ⟨missingOptionValue, .configuration, .high, false, "Option is missing its value",
      "Supply a value after the option"⟩,
   ⟨unknownOption, .configuration, .high, false, "Unrecognized front-end option",
      "Remove the option or check its spelling"⟩,
   ⟨unsupportedEncoding, .configuration, .high, false, "Unsupported source encoding",
      "Convert sources to UTF-8"⟩,
   ⟨invalidPreferences, .configuration, .high, false,
      "Runtime preferences file could not be loaded",
      "Fix the TOML syntax or remove the preferences file"⟩,
   ⟨invalidOptionValue, .configuration, .high, false, "Option value is not valid for the option",
      "Use one of the documented values, e.g. -source 1.8"⟩,
   ⟨sourceReadFailure, .frontEnd, .high, false, "Source file could not be read",
      "Check that the file exists and is readable"⟩,
   ⟨sourceTooLarge, .frontEnd, .high, false, "Source file exceeds the configured size limit",
      "Split the file or raise max_source_file_size"⟩,
   ⟨syntaxError, .frontEnd, .high, false, "Syntax error in compilation unit",
      "Fix the reported syntax error"⟩,
   ⟨unresolvedImport, .frontEnd, .high, false, "Import cannot be resolved",
      "Add the missing source to -sourcepath or pass a -classpath"⟩,
   ⟨duplicateType, .frontEnd, .high, false, "Type is declared more than once in the batch",
      "Remove the duplicate declaration"⟩,
   ⟨publicTypeFileMismatch, .frontEnd, .high, false,
      "Public type must be declared in a file of the same name", "Rename the file or the type"⟩,
   ⟨duplicateMember, .frontEnd, .high, false, "Member is declared more than once in a type",
      "Remove the duplicate member"⟩,
   ⟨globalErrors, .frontEnd, .critical, false, "Front end reported global errors",
      "Resolve the reported front-end errors before translating"⟩,
   ⟨unitDiagnostics, .frontEnd, .critical, false,
      "Compilation unit has errors; batch aborted before translation",
      "Fix the unit's diagnostics and rerun the batch"⟩,
   ⟨unitNotRebuilt, .rebuilding, .medium, true, "Compilation unit could not be translated",
      "Inspect the builder diagnostics for the failing node"⟩,
   ⟨exportFailed, .rebuilding, .medium, true, "Translated AST could not be exported",
      "Check the output path and disk space"⟩,
   ⟨linkageFailure, .linkage, .critical, false, "Native AST builder entry point unavailable",
      "Make sure the signatures of all native callbacks match their declarations"⟩,
   ⟨hostNotInitialized, .linkage, .critical, false,
      "Host entry point called before initialization",
      "Call jtrav_init before any other entry point"⟩,
   ⟨invalidHostArgument, .linkage, .high, false,
      "Invalid argument passed across the native boundary",
      "Pass valid NUL-terminated UTF-8 strings"⟩]

/-- No code has two rows. -/
theorem table_nodup : (table.map CodeInfo.code).Nodup := by decide

/-! ### Questions -/

/-- The row of the code. -/
def info? (code : Code) : Option CodeInfo := table.find? fun row => row.code == code

/-- The severity; a code without a row is of medium severity. -/
def severity (code : Code) : Severity := (code.info?.map CodeInfo.severity).getD .medium

/-- Whether later units can still be handled; so they can for a code without a row. -/
def isRecoverable (code : Code) : Bool := (code.info?.map CodeInfo.recoverable).getD true

/-- Whether the batch stops. -/
def requiresHalt (code : Code) : Bool := (code.info?.map CodeInfo.requiresHalt).getD false

/-- What the code means. -/
def description (code : Code) : String :=
  (code.info?.map CodeInfo.description).getD "Unknown error"

/-- The answer for codes that ask for nothing. -/
def noAction : String := "No specific action available"

/-- What the reader should do. -/
def action (code : Code) : String := (code.info?.map CodeInfo.action).getD noAction

/-- The word for the stage that raises the code. -/
def category (code : Code) : String :=
  (code.info?.map fun row => row.category.word).getD "Unknown"

end Code

end JavaOutline
