/-
**Log events.**

An event has a level, a code, a message of bounded length, a span where it has one, and a context of
named values in the order of their names.  It is shown as a line of text or as a JSON object.

Main definitions:

* `LogLevel` — the levels, the most severe first;
* `LogEvent` — events, with a constructor for each level;
* `LogEvent.clip` — the bound on messages;
* `LogEvent.render`, `LogEvent.json` — the two forms.
-/

import JavaOutline.Attributes
import JavaOutline.Code
import JavaOutline.JsonValue
import JavaOutline.Span

set_option autoImplicit false

namespace JavaOutline

/-! ### Levels -/

/-- The levels of events, the most severe first. -/
inductive LogLevel where
  | error
  | warning
  | info
  | debug
deriving DecidableEq, Repr, Inhabited

namespace LogLevel

/-- The rank of a level; a lower rank is more severe. -/
def rank : LogLevel → Nat
  | error => 0
  | warning => 1
  | info => 2
  | debug => 3

/-- The word for a level. -/
def word : LogLevel → String
  | error => "ERROR"
  | warning => "WARN"
  | info => "INFO"
  | debug => "DEBUG"

/-- The level that a text names, by word or by rank and in upper or lower case. -/
def ofText? (text : String) : Option LogLevel :=
  match String.ofList (text.toList.map Char.toLower) with
  | "error" => some error
  | "0" => some error
  | "warn" => some warning
  | "warning" => some warning
  | "1" => some warning
  | "info" => some info
  | "2" => some info
  | "debug" => some debug
  | "3" => some debug
  | _ => none

/-- Whether events of this level are wanted when `least` is the least severe level wanted. -/
def wantedBy (level least : LogLevel) : Bool := level.rank ≤ least.rank

end LogLevel

/-! ### Events -/

/-- Something that happened. -/
structure LogEvent where
  level : LogLevel
  code : Code
  message : String
  span : Option Span := none
  context : Attributes := []
deriving DecidableEq, Repr, Inhabited

namespace LogEvent

/-- The most bytes that a message may have. -/
def messageLimit : Nat := 4096

/-- A message cut behind its last character within the limit, and marked if it was cut. -/
def clip (message : String) : String :=
  if message.utf8ByteSize ≤ messageLimit then message
  else String.ofList (Text.takeBytes messageLimit message.toList) ++ "..."

/-- An event of a level with a code. -/
def make (level : LogLevel) (code : Code) (message : String) : LogEvent where
  level := level
  code := code
  message := clip message

/-- An error. -/
def error (code : Code) (message : String) : LogEvent := make .error code message

/-- A warning. -/
def warning (message : String) : LogEvent := make .warning .plainWarning message

/-- A message. -/
def info (message : String) : LogEvent := make .info .plainInfo message

/-- A message that something succeeded. -/
def success (code : Code) (message : String) : LogEvent := make .info code message

/-- A trace message. -/
def debug (message : String) : LogEvent := make .debug .plainDebug message

/-- The event at a span. -/
def located (event : LogEvent) (span : Option Span) : LogEvent := { event with span }

/-- The event with one more value in its context. -/
def note (event : LogEvent) (key value : String) : LogEvent :=
  { event with context := event.context.set key value }

/-- The event with more values in its context. -/
def notes (event : LogEvent) (pairs : List (String × String)) : LogEvent :=
  { event with context := event.context.setAll pairs }

/-- Whether the event is an error. -/
def isError (event : LogEvent) : Bool := event.level == .error

/-- Whether the event is a warning. -/
def isWarning (event : LogEvent) : Bool := event.level == .warning

/-- Whether the batch stops. -/
def requiresHalt (event : LogEvent) : Bool := event.code.requiresHalt

/-- What the reader should do. -/
def action (event : LogEvent) : String := event.code.action

/-! ### Showing events -/

/-- The context in parentheses, nothing if it is empty. -/
def renderContext (context : Attributes) : String :=
  if context.isEmpty then ""
  else " (" ++ ", ".intercalate (context.map fun pair => pair.1 ++ "=" ++ pair.2) ++ ")"

/-- The event as a line of text. -/
def render (event : LogEvent) : String :=
  "[" ++ event.level.word ++ "] " ++ event.code.text ++ " - " ++ event.message ++
    (match event.span with
      | some span => " at " ++ span.start.render
      | none => "") ++
    renderContext event.context

/-- The fields that only errors have. -/
def errorFields (event : LogEvent) : List JsonField :=
  if event.isError then
    [⟨"error", .object
      [⟨"action", .text event.action⟩,
       ⟨"description", .text event.code.description⟩,
       ⟨"recoverable", .bool event.code.isRecoverable⟩,
       ⟨"requires_halt", .bool event.requiresHalt⟩,
       ⟨"severity", .text event.code.severity.word⟩]⟩]
  else []

/-- The field for the context, if it is not empty. -/
def contextFields (event : LogEvent) : List JsonField :=
  if event.context.isEmpty then []
  else [⟨"context", .object (event.context.map fun pair => ⟨pair.1, .text pair.2⟩)⟩]

/-- The field for the span, if there is one. -/
def spanFields (event : LogEvent) : List JsonField :=
  match event.span with
  | some span =>
      [⟨"span", .object
        [⟨"column", .number span.start.column⟩,
         ⟨"end_column", .number span.stop.column⟩,
         ⟨"end_line", .number span.stop.line⟩,
         ⟨"line", .number span.start.line⟩]⟩]
  | none => []

/-- The event at a time as a JSON object, its fields in the order of their names. -/
def json (event : LogEvent) (time : String) : JsonValue :=
  .object
    ([⟨"category", .text event.code.category⟩, ⟨"code", .text event.code.text⟩] ++
      event.contextFields ++ event.errorFields ++
      [⟨"level", .text event.level.word⟩, ⟨"message", .text event.message⟩] ++
      event.spanFields ++ [⟨"timestamp", .text time⟩])

end LogEvent

end JavaOutline
