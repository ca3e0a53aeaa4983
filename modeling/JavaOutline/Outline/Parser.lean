/-
**Parsers over tokens.**

A parser reads from a list of tokens and answers with a value or with a syntax error; either way it
says where it stands afterwards, because parsing goes on behind an error.  The state also holds how
deeply the place is nested and the errors that were reported on the way.

Main definitions:

* `SyntaxError` — what can be wrong with a source;
* `Parser.State`, `Parser.Setting`, `Parser.Answer`, `Parser` — parsers;
* `Parser.advance`, `Parser.accept`, `Parser.expect`, `Parser.identifier` — reading single tokens;
* `Parser.bracketed` — passing over a bracket group;
* `Parser.gather`, `Parser.repeatWhile` — repetition, with a turn for every token that is left;
* `Parser.guarded` — one more level of nesting, up to `maxNesting`;
* `Parser.orRecover`, `Parser.orSkip` — reporting an error and going on behind it.
-/

import JavaOutline.Token.Scan

set_option autoImplicit false

namespace JavaOutline

/-! ### Syntax errors -/

/-- What can be wrong with a source. -/
inductive SyntaxError where
  | unexpectedToken (expected found : String) (span : Span)
  | unexpectedEnd (expected : String) (span : Span)
  | nestingTooDeep (span : Span)
  | lexical (error : LexicalError)
deriving DecidableEq, Repr, Inhabited

namespace SyntaxError

/-- The text of the error. -/
def message : SyntaxError → String
  | unexpectedToken expected found _ =>
      "Syntax error: expected " ++ expected ++ ", found '" ++ found ++ "'"
  | unexpectedEnd expected _ => "Syntax error: unexpected end of file, expected " ++ expected
  | nestingTooDeep _ => "Syntax error: nesting too deep"
  | lexical error => error.message

/-- Where the error is. -/
def span : SyntaxError → Span
  | unexpectedToken _ _ s => s
  | unexpectedEnd _ s => s
  | nestingTooDeep s => s
  | lexical error => error.span

end SyntaxError

/-! ### Parsers -/

/-- Where a parser stands, and what it has reported. -/
structure Parser.State where
  /-- The number of tokens behind. -/
  index : Nat := 0
  /-- The token just behind. -/
  last : Option Token := none
  /-- The tokens ahead. -/
  rest : List Token
  /-- How many levels of nesting are counted at this place. -/
  depth : Nat := 0
  /-- The errors reported on the way. -/
  errors : Array SyntaxError := #[]
deriving Repr, Inhabited

/-- What stays the same during a parse. -/
structure Parser.Setting where
  /-- Whether bodies are passed over. -/
  diet : Bool
  /-- Where the text ends. -/
  finish : Position
  /-- The number of tokens of the text. -/
  total : Nat
deriving DecidableEq, Repr, Inhabited

/-- The answer of a parser: a value or an error, and where it stands then. -/
inductive Parser.Answer (α : Type) where
  | ok (value : α) (next : Parser.State)
  | fail (error : SyntaxError) (next : Parser.State)
deriving Repr, Inhabited

/-- A parser of values. -/
def Parser (α : Type) : Type := Parser.Setting → Parser.State → Parser.Answer α

namespace Parser

/-- The parser that reads nothing. -/
@[inline] def pure {α : Type} (a : α) : Parser α := fun _ s => .ok a s

/-- One parser and then another one; an error ends both. -/
@[inline] def bind {α β : Type} (p : Parser α) (f : α → Parser β) : Parser β := fun setting s =>
  match p setting s with
  | .ok a next => f a setting next
  | .fail e next => .fail e next

instance : Monad Parser where
  pure := Parser.pure
  bind := Parser.bind

/-- The state behind an answer. -/
def Answer.state {α : Type} : Answer α → State
  | .ok _ s => s
  | .fail _ s => s

/-! ### States -/

namespace State

/-- The token ahead. -/
def peek? (s : State) : Option Token := s.rest.head?

/-- The state behind the next token; at the end it stays. -/
def advance (s : State) : State :=
  match s.rest with
  | [] => s
  | t :: ts => { s with index := s.index + 1, last := some t, rest := ts }

/-- The state behind so many tokens. -/
def skip : Nat → State → State
  | 0, s => s
  | n + 1, s => skip n s.advance

/-- Whether the token ahead is this keyword or operator. -/
def sees (s : State) (text : String) : Bool := s.rest.head?.any (·.is text)

/-- Whether the token behind the next one is this keyword or operator. -/
def seesSecond (s : State) (text : String) : Bool := (s.rest[1]?).any (·.is text)

/-- Whether the next two tokens are these keywords or operators. -/
def seesPair (s : State) (first second : String) : Bool := s.sees first && s.seesSecond second

/-- Whether the token ahead is an identifier. -/
def seesIdentifier (s : State) : Bool := s.rest.head?.any Token.isIdentifier

/-- Whether the token ahead is the identifier `name`. -/
def seesName (s : State) (name : String) : Bool := s.rest.head?.any (·.isName name)

/-- Whether the token behind the next one is an identifier. -/
def seesIdentifierSecond (s : State) : Bool := (s.rest[1]?).any Token.isIdentifier

/-- The tokens that lie between an earlier state and this one. -/
def tokensSince (s earlier : State) : List Token := earlier.rest.take (s.index - earlier.index)

/-- The span from a position up to the token just behind. -/
def spanFrom (s : State) (start : Position) : Span :=
  match s.last with
  | none => ⟨start, start⟩
  | some t => if t.span.stop.offset < start.offset then ⟨start, start⟩ else ⟨start, t.span.stop⟩

/-- The state with one more reported error. -/
def report (s : State) (e : SyntaxError) : State := { s with errors := s.errors.push e }

end State

/-- The position of the token ahead, or of the end of the text. -/
def Setting.here (setting : Setting) (s : State) : Position :=
  match s.rest with
  | [] => setting.finish
  | t :: _ => t.span.start

/-- The span of the token ahead, or the empty one at the end of the text. -/
def Setting.hereSpan (setting : Setting) (s : State) : Span :=
  match s.rest with
  | [] => ⟨setting.finish, setting.finish⟩
  | t :: _ => t.span

/-- The error that something else was expected ahead. -/
def Setting.unexpected (setting : Setting) (s : State) (expected : String) : SyntaxError :=
  match s.rest with
  | [] => .unexpectedEnd expected ⟨setting.finish, setting.finish⟩
  | t :: _ => .unexpectedToken expected t.text t.span

/-! ### Looking -/

/-- Where the parser stands. -/
def state : Parser State := fun _ s => .ok s s

/-- A question about the state. -/
def ask {α : Type} (f : State → α) : Parser α := fun _ s => .ok (f s) s

/-- Whether bodies are passed over. -/
def isDiet : Parser Bool := fun setting s => .ok setting.diet s

/-- The position of the token ahead. -/
def here : Parser Position := fun setting s => .ok (setting.here s) s

/-- Whether the token ahead is this keyword or operator. -/
def sees (text : String) : Parser Bool := ask (·.sees text)

/-- The span from a position up to the token just behind. -/
def spanFrom (start : Position) : Parser Span := ask (·.spanFrom start)

/-- Fails because something else was expected ahead. -/
def unexpected {α : Type} (expected : String) : Parser α := fun setting s =>
  .fail (setting.unexpected s expected) s

/-! ### Reading -/

/-- Passes over one token. -/
def advance : Parser Unit := fun _ s => .ok () s.advance

/-- Passes over so many tokens. -/
def skip (n : Nat) : Parser Unit := fun _ s => .ok () (s.skip n)

/-- Reads this keyword or operator if it is ahead, and says whether it was. -/
def accept (text : String) : Parser Bool := fun _ s =>
  if s.sees text then .ok true s.advance else .ok false s

/-- Reads this keyword or operator. -/
def expect (text : String) : Parser Span := fun setting s =>
  match s.rest with
  | t :: _ =>
      if t.is text then .ok t.span s.advance
      else .fail (setting.unexpected s ("'" ++ text ++ "'")) s
  | [] => .fail (setting.unexpected s ("'" ++ text ++ "'")) s

/-- Reads an identifier. -/
def identifier : Parser String := fun setting s =>
  match s.rest with
  | t :: _ =>
      if t.isIdentifier then .ok t.text s.advance
      else .fail (setting.unexpected s "identifier") s
  | [] => .fail (setting.unexpected s "identifier") s

/-- How many tokens lead up to the closer of a group, the closer included, `depth` groups of the
same sort being open inside it. -/
def groupLength? (opener closer : String) (depth : Nat) : List Token → Option Nat
  | [] => none
  | t :: ts =>
      if t.is opener then (groupLength? opener closer (depth + 1) ts).map (· + 1)
      else if t.is closer then
        match depth with
        | 0 => some 1
        | depth + 1 => (groupLength? opener closer depth ts).map (· + 1)
      else (groupLength? opener closer depth ts).map (· + 1)

/-- Passes over the group whose opener is ahead. -/
def bracketed (opener closer : String) : Parser Span := fun setting s =>
  let start := setting.here s
  let inside := s.advance
  match groupLength? opener closer 0 inside.rest with
  | some n =>
      let after := inside.skip n
      .ok ⟨start, (after.last.map (·.span.stop)).getD start⟩ after
  | none =>
      .fail (.unexpectedEnd ("'" ++ closer ++ "'") ⟨setting.finish, setting.finish⟩)
        (inside.skip inside.rest.length)

/-! ### Repetition -/

/-- One turn of a repetition. -/
inductive Turn (α : Type) where
  /-- The repetition ends. -/
  | stop
  /-- The repetition goes on. -/
  | skip
  /-- A value is taken and the repetition goes on. -/
  | take (value : α)
  /-- A value is taken and the repetition ends. -/
  | final (value : α)

/-- Takes turns until one ends the repetition, `fuel` times at most. -/
def gatherLoop {α : Type} (turn : Parser (Turn α)) : Nat → Array α → Parser (List α)
  | 0, found => Parser.pure found.toList
  | fuel + 1, found => turn.bind fun
      | .stop => Parser.pure found.toList
      | .skip => gatherLoop turn fuel found
      | .take a => gatherLoop turn fuel (found.push a)
      | .final a => Parser.pure (found.push a).toList

/-- Takes turns until one ends the repetition.  A turn that does not end it reads a token, so one
turn for every token ahead and one more are enough. -/
def gather {α : Type} (turn : Parser (Turn α)) : Parser (List α) := fun setting s =>
  gatherLoop turn (setting.total - s.index + 1) #[] setting s

/-- Repeats a parser while it says so, `fuel` times at most. -/
def repeatLoop (turn : Parser Bool) : Nat → Parser Unit
  | 0 => Parser.pure ()
  | fuel + 1 => turn.bind fun more => if more then repeatLoop turn fuel else Parser.pure ()

/-- Repeats a parser while it says so.  A turn that goes on reads a token, so one turn for every
token ahead and one more are enough. -/
def repeatWhile (turn : Parser Bool) : Parser Unit := fun setting s =>
  repeatLoop turn (setting.total - s.index + 1) setting s

/-- Reads a keyword or operator and what follows it, if the former is ahead. -/
def whenAccepted {α : Type} (text : String) (p : Parser α) : Parser (Option α) := do
  if ← accept text then return some (← p) else return none

/-- One or more items with commas between them. -/
def commaSeparated {α : Type} (item : Parser α) : Parser (List α) := do
  let first ← item
  let others ← gather do
    match ← whenAccepted "," item with
    | some value => return Turn.take value
    | none => return Turn.stop
  return first :: others

/-! ### Nesting -/

/-- How many statements and types may be open around another one. -/
def maxNesting : Nat := 256

/-- Fails because too many statements and types are open. -/
def tooDeep {α : Type} : Parser α := fun setting s =>
  .fail (.nestingTooDeep (setting.hereSpan s)) s

/-- One more level of nesting around a parser.  A level that is refused stays counted. -/
def guarded {α : Type} (p : Parser α) : Parser α := fun setting s =>
  let inner := { s with depth := s.depth + 1 }
  if maxNesting < inner.depth then tooDeep setting inner
  else
    match p setting inner with
    | .ok a next => .ok a { next with depth := next.depth - 1 }
    | .fail e next => .fail e { next with depth := next.depth - 1 }

/-! ### Going on behind an error -/

/-- How many tokens lead to the end of the current member or statement, `depth` brackets being
open. -/
def recoveryLength (depth : Nat) : List Token → Nat
  | [] => 0
  | t :: ts =>
      if t.opens then recoveryLength (depth + 1) ts + 1
      else if t.closes then
        match depth with
        | 0 => 0
        | depth + 1 =>
            if depth = 0 ∧ t.is "\x7d" then 1 else recoveryLength depth ts + 1
      else if t.is ";" ∧ depth = 0 then 1
      else recoveryLength depth ts + 1

/-- The state at the end of the current member or statement. -/
def State.recovered (s : State) : State := s.skip (recoveryLength 0 s.rest)

/-- Reports that something else was expected ahead, and goes on. -/
def reportUnexpected (expected : String) : Parser Unit := fun setting s =>
  .ok () (s.report (setting.unexpected s expected))

/-- Runs a parser; an error is reported, and the parser goes on from there. -/
def orReport (p : Parser Unit) : Parser Unit := fun setting s =>
  match p setting s with
  | .ok _ next => .ok () next
  | .fail e next => .ok () (next.report e)

/-- Runs a parser; an error is reported, and the parser goes on behind the member or statement. -/
def orRecover {α : Type} (p : Parser α) : Parser (Option α) := fun setting s =>
  match p setting s with
  | .ok a next => .ok (some a) next
  | .fail e next => .ok none (next.report e).recovered

/-- As `orRecover`, and passes over one token if the error would leave the parser where it began. -/
def orSkip {α : Type} (p : Parser α) : Parser (Turn α) := fun setting s =>
  match p setting s with
  | .ok a next => .ok (.take a) next
  | .fail e next =>
      let after := (next.report e).recovered
      .ok .skip (if after.index = s.index then after.advance else after)

/-- Runs a parser and goes back to where it began; says whether it succeeded and what it then
saw. -/
def lookingPast {α : Type} (p : Parser α) (test : State → Bool) : Parser Bool := fun setting s =>
  match p setting s with
  | .ok _ next => .ok (test next) s
  | .fail _ _ => .ok false s

end Parser

end JavaOutline
