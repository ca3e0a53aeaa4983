/-
**Inside a host program.**

A host program starts the tool, runs batches, asks what came of them and shuts the tool down, and
each of these is an entry point that answers with a number.  What was handled, and what went wrong,
is remembered from start to shutdown; the log is set up by the first start and stays.  Texts come
from the host as bytes up to a NUL, or are missing.

Main definitions:

* `HostText`, `HostText.read` — texts of a host;
* `HostError` — why an entry point refuses a call;
* `Host`, `HostSession`, `HostReply` — what is remembered, and what an entry point answers;
* `Host.start`, `Host.run`, `Host.errorStatus`, `Host.conflictStatus`, `Host.shutdown` — the entry
  points.

Main results:

* `Host.start_start` — **a second start changes nothing**;
* `Host.session_shutdown`, `Host.terminal_shutdown` — shutting down forgets the session and keeps
  the log.
-/

import JavaOutline.Builder.Host
import JavaOutline.FrontEnd.Sources
import JavaOutline.Run
import JavaOutline.Terminal

set_option autoImplicit false

namespace JavaOutline

/-! ### Refusals -/

/-- Why an entry point refuses a call. -/
inductive HostError where
  /-- The tool was not started. -/
  | notStarted
  /-- An argument is missing. -/
  | missing (argument : String)
  /-- An argument is no text. -/
  | notText (argument : String)
  /-- A text holds a NUL. -/
  | interiorNul (position : Nat)
  /-- The log could not be set up. -/
  | logging (message : String)
deriving DecidableEq, Repr, Inhabited

namespace HostError

/-- The text of the error. -/
def message : HostError → String
  | notStarted => "jtrav_init has not been called"
  | missing argument => "Null pointer passed as " ++ argument
  | notText argument => "Argument " ++ argument ++ " is not valid UTF-8"
  | interiorNul position =>
      "Argument contains an interior NUL byte: nul byte found in provided data at position: " ++
        toString position
  | logging message => "Logging initialization failed: " ++ message

/-- The code of the error. -/
def code : HostError → Code
  | notStarted => .hostNotInitialized
  | logging _ => .initializationFailure
  | missing _ | notText _ | interiorNul _ => .invalidHostArgument

/-- The number that the entry point answers with. -/
def status : HostError → Int
  | logging _ => 1
  | notStarted => 2
  | missing _ | notText _ | interiorNul _ => 3

end HostError

/-! ### Texts -/

/-- A text as a host passes it: bytes, or nothing at all. -/
abbrev HostText : Type := Option (List UInt8)

/-- Reads a text, which ends at the first NUL. -/
def HostText.read (text : HostText) (argument : String) : Except HostError String :=
  match text with
  | none => .error (.missing argument)
  | some bytes =>
      match String.fromUTF8? ⟨(bytes.takeWhile (· != 0)).toArray⟩ with
      | some text => .ok text
      | none => .error (.notText argument)

/-- Reads as many arguments as there are said to be; those that are not there are missing. -/
def readArguments : Nat → List HostText → Except HostError (List String)
  | 0, _ => .ok []
  | _ + 1, [] => .error (.missing "argv element")
  | n + 1, text :: texts => do
      let first ← text.read "argv element"
      let rest ← readArguments n texts
      return first :: rest

/-- Reads a list of arguments.  The list may be missing if there are said to be none; a count below
zero says so too. -/
def hostArguments (count : Int) (texts : Option (List HostText)) :
    Except HostError (List String) :=
  match texts with
  | some texts => readArguments count.toNat texts
  | none => if 0 < count then .error (.missing "argv") else .ok []

/-! ### What is remembered -/

/-- What is remembered from start to shutdown. -/
structure HostSession where
  front : SourceFrontEnd := {}
  session : Session := {}
  settings : RunSettings := {}

/-- What is remembered as long as the host runs. -/
structure Host where
  /-- The log, once it was set up. -/
  terminal : Option Terminal := none
  session : Option HostSession := none

/-- What an entry point answers and prints. -/
structure HostReply where
  status : Int
  printed : Console := {}
deriving DecidableEq, Repr, Inhabited

namespace Host

/-- Prints records, if the log was set up. -/
def print (host : Host) (time : String) (records : List LogRecord) : Console × Host :=
  match host.terminal with
  | none => ({}, host)
  | some terminal =>
      let (printed, terminal) := terminal.print time records
      (printed, { host with terminal := some terminal })

/-- The summary of what was collected. -/
def closing (host : Host) : Console := (host.terminal.map Terminal.closing).getD {}

/-- Refuses a call with a number. -/
def refuse (host : Host) (time : String) (error : HostError) (status : Int) : HostReply × Host :=
  let (printed, host) := host.print time (logRunError error.code error.message []).log
  ({ status, printed }, host)

/-! ### Entry points -/

/-- Starts the tool.  The log is set up unless it was before, and so is the session. -/
def start (environment : Environment) (time : String) (host : Host) : HostReply × Host :=
  let preferences := Preferences.ofEnvironment environment
  let session :=
    host.session.getD { settings := { reading := preferences.reading } }
  match host.terminal with
  | some _ => ({ status := 0 }, { host with session := some session })
  | none =>
      let (printed, terminal) := preferences.terminal.print time loggingStarted.log
      ({ status := 0, printed }, { terminal := some terminal, session := some session })

/-- Runs a batch with the builder of the host, whose state goes through the run. -/
def runWith {η : Type} (tree : FileTree) (time : String) (arguments : List String)
    (table : HostTable η) (state : η) (remembered : HostSession) (host : Host) :
    HostReply × η × Host :=
  let logged := JavaOutline.run (sourceFrontEnd tree) (hostBuilder table) tree remembered.settings
    arguments
    { front := remembered.front, builder := { host := state }, session := remembered.session }
  let (answer, after) := logged.value
  let remembered := { remembered with front := after.front, session := after.session }
  let (events, host) := { host with session := some remembered }.print time logged.log
  match answer with
  | .ok outcome =>
      ({ status := outcome.exitStatus, printed := events ++ Console.line outcome.batchReport },
        after.builder.host, host)
  | .error e =>
      ({ status := e.exitStatus
         printed := events ++ Console.errorLine e.message ++ host.closing },
        after.builder.host, host)

/-- Runs a batch.  The arguments are looked at first, then the table, then whether the tool was
started. -/
def run {η : Type} (tree : FileTree) (time : String) (count : Int)
    (texts : Option (List HostText)) (table : Option (HostTable η)) (state : η) (host : Host) :
    HostReply × η × Host :=
  let refused (error : HostError) : HostReply × η × Host :=
    let (reply, host) := host.refuse time error error.status
    (reply, state, host)
  match hostArguments count texts, table, host.session with
  | .error e, _, _ => refused e
  | .ok _, none, _ => refused (.missing "callbacks")
  | .ok _, some _, none => refused .notStarted
  | .ok arguments, some table, some remembered =>
      host.runWith tree time arguments table state remembered

/-- Whether something went wrong since the start: one or zero, or minus one without a start. -/
def errorStatus (host : Host) : Int :=
  match host.session with
  | none => -1
  | some remembered => if remembered.session.failed then 1 else 0

/-- Whether a file sees another type than `package.name` under the name: one or zero, or minus one
for arguments that cannot be read and without a start. -/
def conflictStatus (time : String) (file package name : HostText) (host : Host) :
    HostReply × Host :=
  let query : Except HostError (String × String × String) := do
    let file ← file.read "file_name"
    let package ← package.read "package_name"
    let name ← name.read "class_name"
    return (file, package, name)
  match query, host.session with
  | .error e, _ => host.refuse time e (-1)
  | .ok _, none => ({ status := -1 }, host)
  | .ok (file, package, name), some remembered =>
      ({ status := if remembered.session.hasConflict file package name then 1 else 0 }, host)

/-- Shuts the tool down.  The log stays. -/
def shutdown (host : Host) : HostReply × Host := ({ status := 0 }, { host with session := none })

/-! ### From start to shutdown -/

/-- A second start changes nothing. -/
theorem start_start (environment : Environment) (time : String) (host : Host) :
    (start environment time (start environment time host).2).2 =
      (start environment time host).2 := by
  cases host with
  | mk terminal session => cases terminal <;> cases session <;> rfl

/-- Shutting down forgets the session. -/
theorem session_shutdown (host : Host) : host.shutdown.2.session = none := rfl

/-- Shutting down keeps the log. -/
theorem terminal_shutdown (host : Host) : host.shutdown.2.terminal = host.terminal := rfl

end Host

end JavaOutline
