/-
**Where records go.**

A journal turns the records of a computation into the events that reach the reader.  It adds the
file to events inside a unit, collects errors and warnings under that file, and lets through the
events that are severe enough.

Main definitions:

* `LogGate` — which events are let through;
* `Journal`, `Journal.write` — a gate and a collector, and writing records to them;
* `MemoryLog` — the latest events, up to a bound;
* `ConsoleFormat`, `Console` — what is printed on the two output streams.

Main results:

* `MemoryLog.size_push_le` — **the memory stays within its bound**;
* `Journal.delivered?_foldl_collect` — collecting leaves alone what is let through;
* `Console.events_append` — events are printed one by one.
-/

import JavaOutline.Log.Record

set_option autoImplicit false

namespace JavaOutline

/-! ### Gates -/

/-- Which events are let through. -/
structure LogGate where
  /-- Whether there is anyone to read. -/
  isOpen : Bool := true
  /-- The least severe level that is wanted. -/
  least : LogLevel := .error
deriving DecidableEq, Repr, Inhabited

namespace LogGate

/-- The gate that nothing passes. -/
def silent : LogGate where
  isOpen := false

/-- Whether events of a level are let through. -/
def passes (gate : LogGate) (level : LogLevel) : Bool :=
  gate.isOpen && level.wantedBy gate.least

/-- A silent gate lets nothing through. -/
theorem silent_passes (level : LogLevel) : silent.passes level = false := rfl

end LogGate

/-! ### Journals -/

/-- A gate for events and a collector for errors and warnings inside units. -/
structure Journal where
  gate : LogGate := {}
  /-- Whether events inside a unit get the file and the place of the unit. -/
  fileContext : Bool := true
  collector : Collector := {}
deriving DecidableEq, Repr, Inhabited

namespace Journal

/-- An event inside a unit with the file and the place of the unit, if they are wanted. -/
def withUnit (journal : Journal) (unit : UnitContext) (event : LogEvent) : LogEvent :=
  if journal.fileContext then
    event.notes [("file", unit.file), ("file_id", toString unit.ordinal)]
  else event

/-- The event of a record as it is let through. -/
def delivered? (journal : Journal) : LogRecord → Option LogEvent
  | .entered _ => none
  | .event unit e =>
      if journal.gate.passes e.level then
        some (match unit with
          | some unit => journal.withUnit unit e
          | none => e)
      else none

/-- The journal with what a record adds to the collector. -/
def collect (journal : Journal) : LogRecord → Journal
  | .entered unit => { journal with collector := journal.collector.recordUnit unit }
  | .event (some unit) e =>
      if e.isError || e.isWarning then
        { journal with
          collector := journal.collector.recordEvent unit.file (journal.withUnit unit e) }
      else journal
  | .event none _ => journal

/-- Writes records: the journal afterwards, and the events that are let through. -/
def write (journal : Journal) (records : List LogRecord) : List LogEvent × Journal :=
  (records.filterMap journal.delivered?, records.foldl collect journal)

/-- Collecting leaves alone what is let through. -/
theorem delivered?_collect (journal : Journal) (record : LogRecord) :
    (journal.collect record).delivered? = journal.delivered? := by
  funext other
  cases record with
  | entered unit => cases other <;> rfl
  | event unit e =>
      cases unit with
      | none => rfl
      | some unit =>
          simp only [collect]
          split
          · cases other <;> rfl
          · rfl

/-- Collecting many records leaves alone what is let through. -/
theorem delivered?_foldl_collect (journal : Journal) (records : List LogRecord) :
    (records.foldl collect journal).delivered? = journal.delivered? := by
  induction records generalizing journal with
  | nil => rfl
  | cons record records ih => rw [List.foldl_cons, ih, delivered?_collect]

end Journal

/-! ### Events in memory -/

/-- The latest events. -/
structure MemoryLog where
  events : Array LogEvent := #[]
deriving DecidableEq, Repr, Inhabited

namespace MemoryLog

/-- The most events that are kept. -/
def bound : Nat := 10000

/-- Keeps an event; the oldest ones give way. -/
def push (memory : MemoryLog) (event : LogEvent) : MemoryLog where
  events :=
    if memory.events.size < bound then memory.events.push event
    else (memory.events.extract (memory.events.size + 1 - bound)).push event

/-- Whether an event with a code is kept. -/
def hasCode (memory : MemoryLog) (code : Code) : Bool := memory.events.any (·.code == code)

/-- The memory stays within its bound. -/
theorem size_push_le (memory : MemoryLog) (event : LogEvent) :
    (memory.push event).events.size ≤ bound := by
  unfold push
  split
  · rename_i h
    simp only [Array.size_push]
    omega
  · have : 0 < bound := by decide
    simp only [Array.size_push, Array.size_extract]
    omega

end MemoryLog

/-! ### Printing -/

/-- How events are printed. -/
inductive ConsoleFormat where
  | text
  | json
deriving DecidableEq, Repr, Inhabited

/-- What is printed. -/
@[ext]
structure Console where
  /-- The standard output. -/
  out : String := ""
  /-- The standard error. -/
  err : String := ""
deriving DecidableEq, Repr, Inhabited

namespace Console

instance : Append Console where
  append a b := { out := a.out ++ b.out, err := a.err ++ b.err }

@[simp] theorem out_append (a b : Console) : (a ++ b).out = a.out ++ b.out := rfl

@[simp] theorem err_append (a b : Console) : (a ++ b).err = a.err ++ b.err := rfl

/-- Nothing in front changes nothing. -/
@[simp] theorem empty_append (a : Console) : ({} : Console) ++ a = a := by ext1 <;> simp

/-- Nothing behind changes nothing. -/
@[simp] theorem append_empty (a : Console) : a ++ ({} : Console) = a := by ext1 <;> simp

/-- It does not matter which two parts are put together first. -/
theorem append_assoc (a b c : Console) : a ++ b ++ c = a ++ (b ++ c) := by
  ext1 <;> simp [String.append_assoc]

/-- A line on the standard output. -/
def line (text : String) : Console where
  out := text ++ "\n"

/-- A line on the standard error. -/
def errorLine (text : String) : Console where
  err := text ++ "\n"

/-- An event on the stream for its level, at a time. -/
def event (format : ConsoleFormat) (time : String) (e : LogEvent) : Console :=
  let text :=
    match format with
    | .text => e.render
    | .json => (e.json time).compact
  if e.isError || e.isWarning then errorLine text else line text

/-- Events in order. -/
def events (format : ConsoleFormat) (time : String) (es : List LogEvent) : Console :=
  es.foldl (fun printed e => printed ++ event format time e) {}

/-- What is printed for events behind something that was printed. -/
theorem foldl_event (format : ConsoleFormat) (time : String) (printed : Console)
    (es : List LogEvent) :
    es.foldl (fun printed e => printed ++ event format time e) printed =
      printed ++ events format time es := by
  induction es generalizing printed with
  | nil => simp [events]
  | cons e es ih =>
      simp only [events, List.foldl_cons, empty_append]
      rw [ih, ih (event format time e), append_assoc]

/-- Events are printed one by one. -/
theorem events_append (format : ConsoleFormat) (time : String) (first second : List LogEvent) :
    events format time (first ++ second) =
      events format time first ++ events format time second := by
  rw [events, List.foldl_append, ← events, foldl_event]

end Console

end JavaOutline
