/-
**Reading by position.**

Tokens are read here a second time, from a list with a mark at its end and a position in it.  Everything
that could go wrong with that is checked and ends in a fault: looking at an index outside the list,
setting the position outside it, cutting a slice that is out of range, counting a depth below zero, and
going through a loop more often than a given number of times.  An error in the source is no fault: it
leaves a state in which the reading goes on.

Main definitions:

* `Walk` — readings by position, with their `Walk.State`, `Walk.Setting` and `Walk.Outcome`;
* `Walk.peekAt`, `Walk.moveTo`, `Walk.spanFrom`, `Walk.textSince` — checked accesses;
* `Walk.skipBalanced`, `Walk.recover`, `Walk.expressionUntil`, `Walk.isForEach` — the loops that count
  brackets;
* `Walk.gather`, `Walk.repeatWhile`, `Walk.guarded`, `Walk.orSkip` — repetition, nesting and errors.
-/

import JavaOutline.Outline.Declarations
import JavaOutline.Proofs.CheckedExpressions

set_option autoImplicit false

namespace JavaOutline

open Checked (minus part item)

/-! ### Readings -/

/-- Where a reading stands, and what it has reported. -/
structure Walk.State where
  /-- The index of the next token. -/
  pos : Nat := 0
  /-- How many levels of nesting are counted at this place. -/
  depth : Nat := 0
  /-- The errors reported on the way. -/
  errors : Array SyntaxError := #[]

/-- What stays the same while a list is read: the tokens and the mark behind them. -/
structure Walk.Setting where
  /-- The tokens in front of the mark. -/
  tokens : List Token
  /-- Where the mark stands. -/
  finish : Position
  /-- Whether bodies are passed over. -/
  diet : Bool
  /-- How often any loop may be gone through, and how deep functions may call each other. -/
  fuel : Nat

/-- What comes of a reading: a value, an error of the source, or a fault. -/
inductive Walk.Outcome (α : Type) where
  | done (value : α) (next : Walk.State)
  | error (error : SyntaxError) (next : Walk.State)
  | fault (fault : Fault)

/-- A reading of values by position. -/
def Walk (α : Type) : Type := Walk.Setting → Walk.State → Walk.Outcome α

namespace Walk

variable {α β : Type}

/-- One reading and then another one; an error or a fault ends both. -/
def bind (q : Walk α) (f : α → Walk β) : Walk β := fun setting w =>
  match q setting w with
  | .done a next => f a setting next
  | .error e next => .error e next
  | .fault f => .fault f

instance : Monad Walk where
  pure a := fun _ w => .done a w
  bind := Walk.bind

/-- A checked result in the middle of a reading. -/
def lift (c : Checked α) : Walk α := fun _ w =>
  match c with
  | .ok a => .done a w
  | .error f => .fault f

/-- The tokens of the list. -/
def tokens : Walk (List Token) := fun setting w => .done setting.tokens w

/-- The empty span of the mark at the end. -/
def finishSpan : Walk Span := fun setting w => .done ⟨setting.finish, setting.finish⟩ w

/-- How often a loop may be gone through. -/
def fuel : Walk Nat := fun setting w => .done setting.fuel w

/-- The position. -/
def position : Walk Nat := fun _ w => .done w.pos w

/-- Whether bodies are passed over. -/
def isDiet : Walk Bool := fun setting w => .done setting.diet w

/-- Gives up with an error of the source. -/
def fail (e : SyntaxError) : Walk α := fun _ w => .error e w

/-- Reports an error and goes on. -/
def report (e : SyntaxError) : Walk Unit := fun _ w => .done () { w with errors := w.errors.push e }

/-! ### Looking and moving -/

/-- What stands at an index: a token, or the mark at the end. -/
def entryAt (i : Nat) : Walk (Option Token) := fun setting w =>
  if i < setting.tokens.length + 1 then .done setting.tokens[i]? w else .fault .index

/-- What stands so many places behind the position, or the mark if the list ends before. -/
def peekAt (n : Nat) : Walk (Option Token) := do
  let pos ← position
  let tokens ← tokens
  entryAt (min (pos + n) tokens.length)

/-- Sets the position. -/
def moveTo (pos : Nat) : Walk Unit := fun setting w =>
  if pos < setting.tokens.length + 1 then .done () { w with pos } else .fault .index

/-- Passes over a token and gives it; the mark is not passed. -/
def next : Walk (Option Token) := do
  let token ← peekAt 0
  let pos ← position
  if token.isSome then moveTo (pos + 1)
  return token

/-- Passes over a token. -/
def advance : Walk Unit := do
  let _ ← next

/-- Passes over so many tokens. -/
def skip : Nat → Walk Unit
  | 0 => return ()
  | n + 1 => do
      advance
      skip n

/-- The tokens among the next three places, on which every decision is made. -/
def window : Walk Parser.State := do
  let first ← peekAt 0
  let second ← peekAt 1
  let third ← peekAt 2
  return { rest := first.toList ++ second.toList ++ third.toList }

/-- Whether the token ahead is this keyword or operator. -/
def sees (text : String) : Walk Bool := do
  let ahead ← peekAt 0
  return ahead.any (·.is text)

/-- The span of the token ahead, or of the mark. -/
def hereSpan : Walk Span := do
  match ← peekAt 0 with
  | some t => return t.span
  | none => finishSpan

/-- The position of the token ahead, or of the mark. -/
def here : Walk Position := do
  let span ← hereSpan
  return span.start

/-- Finds that something else was expected ahead. -/
def unexpectedAhead (expected : String) : Walk SyntaxError := do
  let span ← hereSpan
  match ← peekAt 0 with
  | some t => return .unexpectedToken expected t.text span
  | none => return .unexpectedEnd expected span

/-- Gives up because something else was expected ahead. -/
def unexpected (expected : String) : Walk α := do
  let e ← unexpectedAhead expected
  fail e

/-- Reports that something else was expected ahead, and goes on. -/
def reportUnexpected (expected : String) : Walk Unit := do
  let e ← unexpectedAhead expected
  report e

/-- Reads this keyword or operator if it is ahead, and says whether it was. -/
def accept (text : String) : Walk Bool := do
  if ← sees text then
    advance
    return true
  else return false

/-- Reads this keyword or operator. -/
def expect (text : String) : Walk Span := do
  if ← sees text then
    let span ← hereSpan
    advance
    return span
  else unexpected ("'" ++ text ++ "'")

/-- Reads an identifier. -/
def identifier : Walk String := do
  match ← peekAt 0 with
  | some t =>
      if t.isIdentifier then
        advance
        return t.text
      else unexpected "identifier"
  | none => unexpected "identifier"

/-- The span from a place up to the token just behind. -/
def spanFrom (start : Position) : Walk Span := do
  let pos ← position
  if pos = 0 then return ⟨start, start⟩
  else
    let behind ← lift (minus pos 1)
    let last ← lift (item (← tokens) behind)
    return if last.span.stop.offset < start.offset then ⟨start, start⟩ else ⟨start, last.span.stop⟩

/-- The text of the tokens from an index up to the position. -/
def textSince (start : Nat) : Walk String := do
  let pos ← position
  let slice ← lift (part (← tokens) start pos)
  lift (Checked.textOf slice)

/-! ### Counting brackets -/

/-- Passes over the rest of a group in which `depth` brackets of its sort are open. -/
def skipGroup (opener closer : String) (start : Position) : Nat → Nat → Walk Span
  | 0, _ => lift (.error .endless)
  | fuel + 1, depth => do
      match ← peekAt 0 with
      | none => fail (.unexpectedEnd ("'" ++ closer ++ "'") (← finishSpan))
      | some t =>
          advance
          if t.is opener then skipGroup opener closer start fuel (depth + 1)
          else if t.is closer then
            let depth ← lift (minus depth 1)
            if depth = 0 then return ⟨start, t.span.stop⟩
            else skipGroup opener closer start fuel depth
          else skipGroup opener closer start fuel depth

/-- The bracket that closes a group. -/
def closerOf? (opener : String) : Option String :=
  [("(", ")"), ("[", "]"), ("\x7b", "\x7d"), ("<", ">")].lookup opener

/-- Passes over the group whose opener is ahead. -/
def skipBalanced : Walk Span := do
  match ← next with
  | some opening =>
      match closerOf? opening.text with
      | some closer => skipGroup opening.text closer opening.span.start (← fuel) 1
      | none => unexpected "bracket"
  | none => unexpected "bracket"

/-- Passes over the rest of a member or statement in which `depth` brackets are open. -/
def recoverLoop : Nat → Nat → Walk Unit
  | 0, _ => lift (.error .endless)
  | fuel + 1, depth => do
      match ← peekAt 0 with
      | none => return ()
      | some t =>
          if t.opens then
            advance
            recoverLoop fuel (depth + 1)
          else if t.closes then
            if depth = 0 then return ()
            else
              let depth ← lift (minus depth 1)
              advance
              if depth = 0 ∧ t.is "\x7d" then return () else recoverLoop fuel depth
          else if t.is ";" ∧ depth = 0 then advance
          else
            advance
            recoverLoop fuel depth

/-- Passes over the rest of the current member or statement. -/
def recover : Walk Unit := do
  recoverLoop (← fuel) 0

/-- Passes over the tokens of an expression in which `depth` brackets are open. -/
def expressionLoop (stops : List String) : Nat → Nat → Walk Unit
  | 0, _ => lift (.error .endless)
  | fuel + 1, depth => do
      match ← peekAt 0 with
      | none => return ()
      | some t =>
          if depth = 0 ∧ t.isAny stops then return ()
          else if t.opens then
            advance
            expressionLoop stops fuel (depth + 1)
          else if t.closes then
            if depth = 0 then return ()
            else
              let depth ← lift (minus depth 1)
              advance
              expressionLoop stops fuel depth
          else
            advance
            expressionLoop stops fuel depth

/-- Reads an expression that one of `stops` ends. -/
def expressionUntil (stops : List String) : Walk Expression := do
  let start ← position
  expressionLoop stops (← fuel) 0
  let pos ← position
  let slice ← lift (part (← tokens) start pos)
  if slice.isEmpty then unexpected "expression" else lift (Checked.expressionOf slice)

/-- Whether a colon comes before the header of a loop ends, from an index on; the position stays. -/
def forEachLoop : Nat → Nat → Nat → Walk Bool
  | 0, _, _ => lift (.error .endless)
  | fuel + 1, i, depth => do
      match ← entryAt i with
      | none => return false
      | some t =>
          if t.opens then forEachLoop fuel (i + 1) (depth + 1)
          else if t.closes then
            if depth = 0 then return false
            else
              let depth ← lift (minus depth 1)
              forEachLoop fuel (i + 1) depth
          else if depth = 0 ∧ t.is ";" then return false
          else if depth = 0 ∧ t.is ":" then return true
          else forEachLoop fuel (i + 1) depth

/-- Whether the header ahead is that of a loop over a collection. -/
def isForEach : Walk Bool := do
  forEachLoop (← fuel) (← position) 0

/-! ### Repetition -/

/-- What a repetition finds from a turn on, given how it would go on. -/
def behindTurn (later : Walk (List α)) : Parser.Turn α → Walk (List α)
  | .stop => return []
  | .skip => later
  | .take a => do
      let found ← later
      return a :: found
  | .final a => return [a]

/-- Takes turns until one ends the repetition. -/
def collect (turn : Walk (Parser.Turn α)) : Nat → Walk (List α)
  | 0 => lift (.error .endless)
  | fuel + 1 => turn >>= behindTurn (collect turn fuel)

/-- Takes turns until one ends the repetition. -/
def gather (turn : Walk (Parser.Turn α)) : Walk (List α) := do
  collect turn (← fuel)

/-- Repeats a reading while it says so. -/
def repeatLoop (turn : Walk Bool) : Nat → Walk Unit
  | 0 => lift (.error .endless)
  | fuel + 1 => do
      let more ← turn
      if more then repeatLoop turn fuel else return ()

/-- Repeats a reading while it says so. -/
def repeatWhile (turn : Walk Bool) : Walk Unit := do
  repeatLoop turn (← fuel)

/-- Reads a keyword or operator and what follows it, if the former is ahead. -/
def whenAccepted (text : String) (q : Walk α) : Walk (Option α) := do
  if ← accept text then return some (← q) else return none

/-- One or more items with commas between them. -/
def commaSeparated (item : Walk α) : Walk (List α) := do
  let first ← item
  let others ← gather do
    match ← whenAccepted "," item with
    | some value => return Parser.Turn.take value
    | none => return Parser.Turn.stop
  return first :: others

/-! ### Nesting and errors -/

/-- The state one level deeper, and the state when the level is left. -/
def State.enter (w : State) : State := { w with depth := w.depth + 1 }

def State.leave (w : State) : State := { w with depth := w.depth - 1 }

/-- Gives up because too many statements and types are open. -/
def tooDeep : Walk α := do
  fail (.nestingTooDeep (← hereSpan))

/-- One more level of nesting around a reading.  A level that is refused stays counted. -/
def guarded (q : Walk α) : Walk α := fun setting w =>
  if Parser.maxNesting < w.enter.depth then tooDeep setting w.enter
  else
    match q setting w.enter with
    | .done a next => .done a next.leave
    | .error e next => .error e next.leave
    | .fault f => .fault f

/-- Goes on with `handler` behind an error, which is reported. -/
def orElse (q : Walk α) (handler : Walk α) : Walk α := fun setting w =>
  match q setting w with
  | .error e next => (report e >>= fun _ => handler) setting next
  | outcome => outcome

/-- An error is reported, and the reading goes on from there. -/
def orReport (q : Walk Unit) : Walk Unit := orElse q (return ())

/-- An error is reported, and the reading goes on behind the member or statement. -/
def orRecover (q : Walk α) : Walk (Option α) :=
  orElse (do return some (← q)) do
    recover
    return none

/-- As `orRecover`, and passes over one token if the error would leave the position where it was. -/
def orSkip (q : Walk α) : Walk (Parser.Turn α) := do
  let before ← position
  orElse (do return .take (← q)) do
    recover
    let pos ← position
    if pos = before then advance
    return .skip

/-- Runs a reading and goes back to where it began; what was reported since is forgotten.  Says whether
the reading succeeded and what was then ahead. -/
def lookingPast (q : Walk α) (test : Parser.State → Bool) : Walk Bool := fun setting w =>
  let back (answer : Bool) (next : State) : Outcome Bool :=
    (moveTo w.pos >>= fun _ => pure answer) setting
      { next with errors := next.errors.take w.errors.size }
  match (q >>= fun _ => window) setting w with
  | .done ahead next => back (test ahead) next
  | .error _ next => back false next
  | .fault f => .fault f

end Walk

end JavaOutline
