/-
**What a reader gets to see.**

A terminal prints the events of a run as they come, in the form that the preferences ask for.  It
also keeps what was collected on units, and prints a summary of it when a run goes wrong.

Main definitions:

* `Terminal` — a journal with the form in which it is printed;
* `Terminal.print` — printing records;
* `Terminal.closing` — the summary of what was collected;
* `Preferences.terminal`, `loggingStarted` — the terminal that preferences ask for, and its first
  record.

Main results:

* `Terminal.print_append` — printing goes record by record.
-/

import JavaOutline.Preferences

set_option autoImplicit false

namespace JavaOutline

/-- A journal with the form in which it is printed. -/
structure Terminal where
  journal : Journal := {}
  format : ConsoleFormat := .text
  /-- Whether there is a summary when something went wrong. -/
  summary : Bool := true
deriving DecidableEq, Repr, Inhabited

/-- The terminal that preferences ask for. -/
def Preferences.terminal (p : Preferences) : Terminal where
  journal := p.journal
  format := p.format
  summary := p.logging.summary

/-- The first record of a log. -/
def loggingStarted : Logged Unit :=
  Logged.tell ((LogEvent.success .systemInitialized "Logging initialized").note "build" buildInfo)

/-! ### Printing -/

namespace Terminal

/-- Prints records at a time. -/
def print (terminal : Terminal) (time : String) (records : List LogRecord) : Console × Terminal :=
  let (events, journal) := terminal.journal.write records
  (Console.events terminal.format time events, { terminal with journal })

/-- The summary of what was collected, if one is wanted. -/
def closing (terminal : Terminal) : Console :=
  if terminal.summary then { err := terminal.journal.collector.report } else {}

end Terminal

/-- Printing goes record by record. -/
theorem Terminal.print_append (terminal : Terminal) (time : String)
    (first second : List LogRecord) :
    terminal.print time (first ++ second) =
      let (printed, next) := terminal.print time first
      let (more, last) := next.print time second
      (printed ++ more, last) := by
  simp only [print, Journal.write, List.filterMap_append, List.foldl_append,
    Console.events_append, Journal.delivered?_foldl_collect]

end JavaOutline
