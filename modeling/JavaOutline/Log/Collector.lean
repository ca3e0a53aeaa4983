/-
**Diagnostics by unit.**

Errors and warnings that arise while a unit is being handled are collected under the file of the
unit, so that a failed batch can be reported file by file.  Both the number for one file and the
number for all files are bounded.

Main definitions:

* `UnitContext` — the unit that is being handled;
* `UnitRecord`, `Collector` — what is collected, in the order of the paths;
* `Collector.recordUnit`, `Collector.recordEvent` — collecting;
* `Collector.summary`, `Collector.report` — the totals and the text of the report.
-/

import JavaOutline.Log.Event
import JavaOutline.Path

set_option autoImplicit false

namespace JavaOutline

/-- The unit that is being handled. -/
structure UnitContext where
  /-- Its file. -/
  file : String
  /-- Its place in the batch. -/
  ordinal : Nat
deriving DecidableEq, Repr, Inhabited

/-- What is collected for one file. -/
structure UnitRecord where
  /-- The file as it was written first. -/
  file : String
  /-- The place of the unit in its batch. -/
  ordinal : Nat := 0
  /-- The events in order. -/
  events : Array LogEvent := #[]
  /-- Whether events were dropped because there were too many. -/
  truncated : Bool := false
deriving DecidableEq, Repr, Inhabited

/-- The totals. -/
structure Summary where
  /-- Files that were handled. -/
  unitsSeen : Nat := 0
  /-- Files with an error. -/
  unitsFailed : Nat := 0
  errors : Nat := 0
  warnings : Nat := 0
deriving DecidableEq, Repr, Inhabited

/-- What is collected, in the order of the paths. -/
structure Collector where
  records : List UnitRecord := []
  /-- The number of events collected. -/
  total : Nat := 0
deriving DecidableEq, Repr, Inhabited

/-! ### Collecting -/

/-- The most events collected for one file. -/
def eventsPerFile : Nat := 1000

/-- The most events collected for all files. -/
def eventsPerBatch : Nat := 1000

namespace UnitRecord

/-- The number of errors. -/
def errorCount (r : UnitRecord) : Nat := r.events.toList.countP LogEvent.isError

/-- The number of warnings. -/
def warningCount (r : UnitRecord) : Nat := r.events.toList.countP LogEvent.isWarning

/-- Changes the record of a file, which is put in its place if there is none. -/
def update (file : String) (change : UnitRecord → UnitRecord) :
    List UnitRecord → List UnitRecord
  | [] => [change { file }]
  | r :: rs =>
      if Path.components file = Path.components r.file then change r :: rs
      else if Path.precedes (Path.components file) (Path.components r.file) then
        change { file } :: r :: rs
      else r :: update file change rs

end UnitRecord

namespace Collector

/-- The record of a file. -/
def record? (c : Collector) (file : String) : Option UnitRecord :=
  c.records.find? fun r => Path.components r.file == Path.components file

/-- Notes that a unit is being handled. -/
def recordUnit (c : Collector) (unit : UnitContext) : Collector :=
  { c with
    records := UnitRecord.update unit.file (fun r => { r with ordinal := unit.ordinal }) c.records }

/-- Collects an event under a file.  A full record is marked, and a full collector drops the event
without a mark. -/
def recordEvent (c : Collector) (file : String) (event : LogEvent) : Collector :=
  let held := ((c.record? file).map (·.events.size)).getD 0
  if eventsPerFile ≤ held then
    { c with records := UnitRecord.update file (fun r => { r with truncated := true }) c.records }
  else if eventsPerBatch ≤ c.total then
    { c with records := UnitRecord.update file id c.records }
  else
    { records :=
        UnitRecord.update file (fun r => { r with events := r.events.push event }) c.records
      total := c.total + 1 }

/-- The events collected under a file. -/
def unitEvents (c : Collector) (file : String) : List LogEvent :=
  ((c.record? file).map (·.events.toList)).getD []

/-- The totals. -/
def summary (c : Collector) : Summary where
  unitsSeen := c.records.length
  unitsFailed := c.records.countP fun r => 0 < r.errorCount
  errors := c.records.foldl (fun total r => total + r.errorCount) 0
  warnings := c.records.foldl (fun total r => total + r.warningCount) 0

/-! ### The report -/

/-- The lines of the report for one event. -/
def eventLines (file : String) (event : LogEvent) : List String :=
  let label := if event.isError then "error" else "warning"
  let location :=
    match event.span with
    | some span => file ++ ":" ++ span.start.render
    | none => file
  let shown := event.context.filter fun pair => pair.1 != "file" && pair.1 != "file_id"
  let help :=
    if event.isError && event.action != Code.noAction then ["  = help: " ++ event.action] else []
  [label ++ "[" ++ event.code.text ++ "]: " ++ event.message, "  --> " ++ location] ++
    shown.map (fun pair => "  = " ++ pair.1 ++ ": " ++ pair.2) ++ help

/-- The lines of the report for one file; a file without events has none. -/
def recordLines (r : UnitRecord) : List String :=
  if r.events.isEmpty then []
  else
    let mark :=
      if r.truncated then
        ["  = note: unit #" ++ toString r.ordinal ++ " hit the limit of " ++
          toString eventsPerFile ++ " diagnostics"]
      else []
    r.events.toList.flatMap (eventLines r.file) ++ mark ++ [""]

/-- The lines of the report for the totals. -/
def summaryLines (s : Summary) : List String :=
  (if 0 < s.errors then
    ["error: " ++ toString s.errors ++ " error(s) in " ++ toString s.unitsFailed ++ " unit(s)"]
   else []) ++
    (if 0 < s.warnings then ["warning: " ++ toString s.warnings ++ " warning(s)"] else [])

/-- The text of the report, empty if nothing was collected. -/
def report (c : Collector) : String :=
  String.join ((c.records.flatMap recordLines ++ summaryLines c.summary).map (· ++ "\n"))

end Collector

end JavaOutline
