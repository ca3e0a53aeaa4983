/-
**Verbosity flags.**

The flag that says how talkative the tool is may stand anywhere among the arguments of the front
end.  It is taken out before the front end sees them, and sets the level of the session; the last
flag counts.

Main definitions:

* `FlagForm`, `FlagStyle` — how the flag carries its level;
* `FlagStyle.payload?` — the level as it is written, if an argument is a flag;
* `Session.filterArguments` — the arguments without flags, and the session with its level.
-/

import JavaOutline.ConfigError
import JavaOutline.Log.Record
import JavaOutline.Session
import JavaOutline.Text.Affix
import JavaOutline.Text.Blank
import JavaOutline.Text.Decimal

set_option autoImplicit false

namespace JavaOutline

/-- How a flag carries its level. -/
inductive FlagForm where
  /-- In the same argument, behind an equals sign. -/
  | equals
  /-- In the next argument. -/
  | separate
deriving DecidableEq, Repr, Inhabited

/-- What the verbosity flag looks like. -/
structure FlagStyle where
  /-- The flag itself. -/
  name : String := "--verbose"
  form : FlagForm := .equals
deriving DecidableEq, Repr, Inhabited

/-- The level inside an argument, if the argument is a flag that carries one.  A bare flag carries
an empty text. -/
def FlagStyle.inline? (style : FlagStyle) (argument : String) : Option String :=
  if argument = style.name then some ""
  else (Text.behind? argument style.name).bind (Text.behind? · "=")

/-- The level that is written as a text. -/
def verbosityLevel? (payload : String) : Option Nat := Text.word32? (Text.trim payload)

namespace Session

/-- Sets the level that a flag carries. -/
def applyFlag (session : Session) (flag payload : String) :
    Logged (Except ConfigError Session) :=
  match verbosityLevel? payload with
  | none => pure (.error (.invalidVerbosity flag payload))
  | some level => do
      let next := { session with verbosity := level }
      if next.isTracing then
        Logged.tell ((LogEvent.debug "Verbosity flag removed").notes
          [("flag", flag), ("level", toString level)])
      return .ok next

/-- The arguments without verbosity flags, and the session with the level of the last flag.  The
first flag without a proper level ends the search. -/
def filterArguments (style : FlagStyle) (session : Session) :
    List String → Logged (Except ConfigError (List String) × Session)
  | [] => pure (.ok [], session)
  | argument :: rest =>
      match style.form with
      | .equals =>
          match style.inline? argument with
          | none => do
              let (found, after) ← filterArguments style session rest
              return (found.map (argument :: ·), after)
          | some payload => do
              match ← session.applyFlag argument payload with
              | .error e => return (.error e, session)
              | .ok next => filterArguments style next rest
      | .separate =>
          if argument = style.name then
            match rest with
            | [] => pure (.error (.missingValue argument), session)
            | payload :: rest => do
                match ← session.applyFlag argument payload with
                | .error e => return (.error e, session)
                | .ok next => filterArguments style next rest
          else do
            let (found, after) ← filterArguments style session rest
            return (found.map (argument :: ·), after)

end Session

end JavaOutline
