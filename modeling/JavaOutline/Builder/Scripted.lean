/-
**Builders that fail by a script.**

A builder around another one that fails at chosen events before the other one hears of them.  It is
used to see what becomes of a batch whose builder fails somewhere.

Main definitions:

* `FailureScript`, `Script` — at which events the builder fails, and what else it does;
* `ScriptedBuilder`, `scriptedBuilder` — the builder.
-/

import JavaOutline.Builder

set_option autoImplicit false

namespace JavaOutline

/-- Where a builder fails. -/
structure FailureScript where
  /-- The entry point that fails. -/
  entryPoint : String
  /-- The file inside of which it fails, if not everywhere. -/
  file : Option String := none
  /-- Which call fails, counted from one; every call fails for zero. -/
  nth : Nat := 0
  /-- Whether the entry point is missing; otherwise it rejects. -/
  isLinkage : Bool := false
deriving DecidableEq, Repr, Inhabited

/-- What a builder does besides passing on what it is told. -/
structure Script where
  failure : Option FailureScript := none
  /-- The answers for files. -/
  specified : List (String × Bool) := []
  /-- Whether the other builder does not hear of units that are to be forgotten. -/
  ignoresAbort : Bool := false
deriving DecidableEq, Repr, Inhabited

/-- The state of a builder with a script. -/
structure ScriptedBuilder (β : Type) where
  /-- The builder inside. -/
  inner : β
  script : Script := {}
  /-- The file of the unit that was entered last. -/
  file : Option String := none
  /-- The number of calls that the script was watching for. -/
  calls : Nat := 0
deriving Inhabited

namespace ScriptedBuilder

variable {β : Type}

/-- The state under another script, whose count begins anew. -/
def withScript (state : ScriptedBuilder β) (script : Script) : ScriptedBuilder β :=
  { state with script, calls := 0 }

/-- Whether a call is one that the script watches for. -/
def isWatched (state : ScriptedBuilder β) (failure : FailureScript) (entryPoint : String) : Bool :=
  failure.entryPoint == entryPoint &&
    (match failure.file with
      | some file => state.file == some file
      | none => true)

/-- The error of an entry point that fails. -/
def FailureScript.error (failure : FailureScript) : BuilderError :=
  if failure.isLinkage then .linkage failure.entryPoint
  else .rejected failure.entryPoint "scripted"

/-- Counts a call, and passes it on unless the script lets it fail. -/
def guarded (state : ScriptedBuilder β) (entryPoint : String)
    (call : β → Except BuilderError Unit × β) : Except BuilderError Unit × ScriptedBuilder β :=
  let passOn (state : ScriptedBuilder β) : Except BuilderError Unit × ScriptedBuilder β :=
    let (answer, inner) := call state.inner
    (answer, { state with inner })
  match state.script.failure with
  | none => passOn state
  | some failure =>
      if state.isWatched failure entryPoint then
        let next := { state with calls := state.calls + 1 }
        if failure.nth = 0 || failure.nth = next.calls then
          (.error (FailureScript.error failure), next)
        else passOn next
      else passOn state

/-- The state behind the beginning of a unit. -/
def entering (state : ScriptedBuilder β) : NodeEvent → ScriptedBuilder β
  | .enterUnit file _ _ => { state with file := some file }
  | _ => state

end ScriptedBuilder

/-- A builder with a script around another one. -/
def scriptedBuilder {β : Type} (builder : Builder β) : Builder (ScriptedBuilder β) where
  beginBatch := fun state => { state with file := none }.guarded "begin_batch" builder.beginBatch
  endBatch := fun state => state.guarded "end_batch" builder.endBatch
  isSpecified := fun file state => (state.script.specified.lookup file, state)
  abort := fun file state =>
    if state.script.ignoresAbort then state
    else { state with inner := builder.abort file state.inner }
  node := fun event state =>
    (state.entering event).guarded event.entryPoint (builder.node event)

end JavaOutline
