/-
**Computations that write a log.**

The stages of a batch write to the log while they compute.  What they write stands beside what they
compute, as a list of records, so that a statement about the value need not mention the log.

Main definitions:

* `LogRecord` — a unit that was entered, or an event inside or outside of a unit;
* `Logged` — a value with the records written on the way to it;
* `Logged.tell`, `Logged.inUnit` — writing an event, and working inside a unit.

Main results:

* `Logged.value_bind`, `Logged.log_bind` — values and records of a sequence;
* `Logged.value_inUnit` — working inside a unit changes the records only.
-/

import JavaOutline.Log.Collector

set_option autoImplicit false

namespace JavaOutline

/-- What is written to the log. -/
inductive LogRecord where
  /-- Work on a unit began. -/
  | entered (unit : UnitContext)
  /-- Something happened, while a unit was being handled or outside of all units. -/
  | event (unit : Option UnitContext) (event : LogEvent)
deriving DecidableEq, Repr, Inhabited

/-- The record as it is written inside a unit; the innermost unit counts. -/
def LogRecord.within (unit : UnitContext) : LogRecord → LogRecord
  | .entered inner => .entered inner
  | .event inner e => .event (inner.or (some unit)) e

/-- A value with the records written on the way to it. -/
structure Logged (α : Type) where
  value : α
  /-- The records in the order in which they were written. -/
  log : List LogRecord := []
deriving Repr, Inhabited

namespace Logged

variable {α β : Type}

instance : Monad Logged where
  pure value := { value }
  bind first next :=
    { value := (next first.value).value
      log := first.log ++ (next first.value).log }

@[simp] theorem value_pure (a : α) : (pure a : Logged α).value = a := rfl

@[simp] theorem log_pure (a : α) : (pure a : Logged α).log = [] := rfl

@[simp] theorem value_bind (first : Logged α) (next : α → Logged β) :
    (first >>= next).value = (next first.value).value := rfl

@[simp] theorem log_bind (first : Logged α) (next : α → Logged β) :
    (first >>= next).log = first.log ++ (next first.value).log := rfl

@[simp] theorem value_map (f : α → β) (first : Logged α) : (f <$> first).value = f first.value := rfl

/-- Writes an event. -/
def tell (event : LogEvent) : Logged Unit where
  value := ()
  log := [.event none event]

/-- Works inside a unit. -/
def inUnit (unit : UnitContext) (work : Logged α) : Logged α where
  value := work.value
  log := .entered unit :: work.log.map (LogRecord.within unit)

/-- Working inside a unit changes the records only. -/
@[simp] theorem value_inUnit (unit : UnitContext) (work : Logged α) :
    (inUnit unit work).value = work.value := rfl

@[simp] theorem value_tell (event : LogEvent) : (tell event).value = () := rfl

end Logged

end JavaOutline
