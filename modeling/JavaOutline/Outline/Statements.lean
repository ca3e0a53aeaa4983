/-
**Reading statements.**

A statement may hold further statements and local types.  The parsers for what lies one level
deeper are a parameter (`Nested`), so each parser here is defined outright; tying the levels
together is left to the module on declarations.

Main definitions:

* `Nested` — the parsers for statements and types one level deeper;
* `block` — statements between braces, each error passed over;
* `forStatement`, `switchStatement`, `tryStatement` — the statements with several parts;
* `declarationOrExpression` — what begins with no keyword of its own;
* `statementBody` — any statement.
-/

import JavaOutline.Outline.Phrase

set_option autoImplicit false

namespace JavaOutline

open JavaOutline.Parser

/-- The parsers for what is nested one level deeper. -/
structure Nested where
  /-- Reads a statement. -/
  statement : Parser Statement
  /-- Reads a type declaration behind its modifiers; it began at the position. -/
  typeDecl : List String → Position → Parser TypeDecl

/-! ### Blocks -/

/-- Reads statements up to the closing brace, which stays ahead; the end of the text is
reported. -/
def blockStatements (sub : Nested) : Parser (List Statement) :=
  gather do
    let s ← state
    if s.sees "\x7d" then return Turn.stop
    else if s.rest.isEmpty then
      reportUnexpected "'\x7d'"
      return Turn.stop
    else orSkip sub.statement

/-- Reads statements between braces.  The closing brace may be missing at the end of the text. -/
def block (sub : Nested) : Parser Block := do
  let opening ← expect "\x7b"
  let statements ← blockStatements sub
  let _ ← accept "\x7d"
  return { statements, span := ← spanFrom opening.start }

/-! ### Loops -/

/-- Whether the header ahead is that of a loop over a collection: a colon comes before any
semicolon and before the header ends.  `depth` brackets are open. -/
def isForEachHeader (depth : Nat) : List Token → Bool
  | [] => false
  | t :: ts =>
      if t.opens then isForEachHeader (depth + 1) ts
      else if t.closes then
        match depth with
        | 0 => false
        | depth + 1 => isForEachHeader depth ts
      else if depth = 0 ∧ t.is ";" then false
      else if depth = 0 ∧ t.is ":" then true
      else isForEachHeader depth ts

/-- Reads one part of the header of a counting loop up to its terminator, if the part is not
empty. -/
def forClause (terminator : String) : Parser (List Expression) := do
  if ← sees terminator then return []
  else
    let words ← modifiers
    let declares ← looksLikeLocalDeclaration
    if !words.isEmpty || declares then
      let _ ← typeReference
    return [← expressionUntil [terminator]]

/-- Reads a loop with `for` that began at the position. -/
def forStatement (sub : Nested) (start : Position) : Parser Statement := do
  let _ ← expect "for"
  let _ ← expect "("
  let header ← state
  if isForEachHeader 0 header.rest then
    let _ ← modifiers
    let _ ← typeReference
    let name ← identifier
    let _ ← expect ":"
    let collection ← expressionUntil [")"]
    let _ ← expect ")"
    let body ← sub.statement
    return { kind := .forEach, label := some name, expressions := [collection],
             children := [body], span := ← spanFrom start }
  else
    let first ← forClause ";"
    let _ ← expect ";"
    let condition ← forClause ";"
    let _ ← expect ";"
    let update ← forClause ")"
    let _ ← expect ")"
    let body ← sub.statement
    return { kind := .forLoop, expressions := first ++ condition ++ update, children := [body],
             span := ← spanFrom start }

/-! ### Switches -/

/-- Reads the label of a case: its name, if it is `default`, and its expressions. -/
def caseLabel : Parser (Option String × List Expression) := do
  if ← accept "case" then
    return (none, ← commaSeparated (expressionUntil [",", ":", "->"]))
  else if ← accept "default" then return (some "default", [])
  else unexpected "'case' or 'default'"

/-- Reads the statements of a case behind its colon. -/
def caseStatements (sub : Nested) : Parser (List Statement) :=
  gather do
    let s ← state
    if s.sees "case" || s.sees "default" || s.sees "\x7d" then return Turn.stop
    else if s.rest.isEmpty then unexpected "'\x7d'"
    else orSkip sub.statement

/-- Reads what follows the label of a case: an arrow and one statement, or a colon and any
number. -/
def caseBody (sub : Nested) : Parser (List Statement) := do
  match ← whenAccepted "->" sub.statement with
  | some statement => return [statement]
  | none =>
      let _ ← expect ":"
      caseStatements sub

/-- Reads one case of a switch. -/
def switchCase (sub : Nested) : Parser Statement := do
  let start ← here
  let (label, expressions) ← caseLabel
  let children ← caseBody sub
  return { kind := .switchCase, label, expressions, children, span := ← spanFrom start }

/-- Reads a switch that began at the position. -/
def switchStatement (sub : Nested) (start : Position) : Parser Statement := do
  let _ ← expect "switch"
  let selector ← parenthesized
  let _ ← expect "\x7b"
  let cases ← gather do
    let s ← state
    if s.sees "\x7d" then return Turn.stop
    else if s.rest.isEmpty then unexpected "'\x7d'"
    else return Turn.take (← switchCase sub)
  let _ ← expect "\x7d"
  return { kind := .switch, expressions := [selector], children := cases,
           span := ← spanFrom start }

/-! ### Handlers -/

/-- Reads one resource of a `try`. -/
def resource : Parser Expression := do
  let _ ← modifiers
  if ← looksLikeLocalDeclaration then
    let _ ← typeReference
  expressionUntil [";", ")"]

/-- Reads the resources of a `try`, if there are any. -/
def resources : Parser (List Expression) := do
  if ← accept "(" then
    let found ← gather do
      if ← sees ")" then return Turn.stop
      else
        let expression ← resource
        if ← accept ";" then return Turn.take expression else return Turn.final expression
    let _ ← expect ")"
    return found
  else return []

/-- Reads a `catch`. -/
def catchClause (sub : Nested) : Parser Statement := do
  let start ← here
  advance
  let _ ← expect "("
  let _ ← modifiers
  let _ ← typeReference
  repeatWhile do
    return (← whenAccepted "|" typeReference).isSome
  let name ← identifier
  let _ ← expect ")"
  let body ← block sub
  return { kind := .catchBlock, label := some name, children := body.statements,
           span := ← spanFrom start }

/-- Reads a `finally`, if there is one. -/
def finallyClause (sub : Nested) : Parser (List Statement) := do
  let start ← here
  if ← accept "finally" then
    let body ← block sub
    return [{ kind := .finallyBlock, children := body.statements, span := ← spanFrom start }]
  else return []

/-- Reads a `try` that began at the position.  Without resources it needs a handler. -/
def tryStatement (sub : Nested) (start : Position) : Parser Statement := do
  let _ ← expect "try"
  let expressions ← resources
  let body ← block sub
  let catches ← gather do
    if ← sees "catch" then return Turn.take (← catchClause sub) else return Turn.stop
  let finals ← finallyClause sub
  let handlers := catches ++ finals
  if handlers.isEmpty && expressions.isEmpty then unexpected "'catch' or 'finally'"
  else
    return { kind := .tryBlock, expressions,
             children :=
               { kind := .block, children := body.statements, span := body.span } :: handlers,
             span := ← spanFrom start }

/-! ### Statements without a keyword of their own -/

/-- Whether a type declaration is ahead. -/
def Parser.State.seesTypeDecl (s : State) : Bool :=
  s.sees "class" || s.sees "interface" || s.sees "enum" || s.seesPair "@" "interface" ||
    (s.seesName "record" && s.seesIdentifierSecond)

/-- Reads the declaration of local variables that began at the position. -/
def localVariables (start : Position) : Parser Statement := do
  let _ ← typeReference
  let first ← identifier
  let found ← declarators first
  let _ ← expect ";"
  return { kind := .localVariable
           label := some (",".intercalate (found.map VariableDecl.name))
           expressions := found.filterMap VariableDecl.initializer
           span := ← spanFrom start }

/-- Reads an expression as a statement that began at the position. -/
def expressionStatement (start : Position) : Parser Statement := do
  let expression ← expressionUntil [";"]
  let _ ← expect ";"
  return { kind := .expression, expressions := [expression], span := ← spanFrom start }

/-- Goes back to an earlier place; what was reported since stays. -/
def Parser.backTo (place : State) : Parser Unit := fun _ s =>
  .ok () { s with index := place.index, last := place.last, rest := place.rest }

/-- Reads a labeled statement, a local type, local variables or an expression. -/
def declarationOrExpression (sub : Nested) (start : Position) : Parser Statement := do
  let place ← state
  if place.seesIdentifier && place.seesSecond ":" then
    let label ← identifier
    advance
    let body ← sub.statement
    return { kind := .labeled, label := some label, children := [body], span := ← spanFrom start }
  else
    let words ← modifiers
    let s ← state
    if s.seesTypeDecl then
      let decl ← sub.typeDecl words start
      return { kind := .localType, label := some decl.name, span := decl.span }
    else if ← looksLikeLocalDeclaration then localVariables start
    else if !words.isEmpty then unexpected "declaration"
    else
      backTo place
      expressionStatement start

/-! ### Any statement -/

/-- Reads a block as a statement. -/
def blockStatement (sub : Nested) : Parser Statement := do
  let body ← block sub
  return { kind := .block, children := body.statements, span := body.span }

/-- Reads an empty statement that began at the position. -/
def emptyStatement (start : Position) : Parser Statement := do
  advance
  return { kind := .empty, span := ← spanFrom start }

/-- Reads an `if` that began at the position. -/
def ifStatement (sub : Nested) (start : Position) : Parser Statement := do
  advance
  let condition ← parenthesized
  let thenBranch ← sub.statement
  let elseBranch ← whenAccepted "else" sub.statement
  return { kind := .ifThen, expressions := [condition],
           children := thenBranch :: elseBranch.toList, span := ← spanFrom start }

/-- Reads a loop with `while` that began at the position. -/
def whileStatement (sub : Nested) (start : Position) : Parser Statement := do
  advance
  let condition ← parenthesized
  let body ← sub.statement
  return { kind := .whileLoop, expressions := [condition], children := [body],
           span := ← spanFrom start }

/-- Reads a loop with `do` that began at the position. -/
def doStatement (sub : Nested) (start : Position) : Parser Statement := do
  advance
  let body ← sub.statement
  let _ ← expect "while"
  let condition ← parenthesized
  let _ ← expect ";"
  return { kind := .doLoop, expressions := [condition], children := [body],
           span := ← spanFrom start }

/-- Reads a `synchronized` that began at the position. -/
def synchronizedStatement (sub : Nested) (start : Position) : Parser Statement := do
  advance
  let lock ← parenthesized
  let body ← block sub
  return { kind := .synchronized, expressions := [lock], children := body.statements,
           span := ← spanFrom start }

/-- Reads the value of a `return` or a `throw`, if there is one. -/
def exitValue : Parser (List Expression) := do
  if ← sees ";" then return [] else return [← expressionUntil [";"]]

/-- Reads a `return` or a `throw` that began at the position. -/
def exitStatement (kind : Statement.Kind) (start : Position) : Parser Statement := do
  advance
  let expressions ← exitValue
  let _ ← expect ";"
  return { kind, expressions, span := ← spanFrom start }

/-- Reads a label, if there is one. -/
def jumpLabel : Parser (Option String) := do
  let s ← state
  if s.seesIdentifier then return some (← identifier) else return none

/-- Reads a `break` or a `continue` that began at the position. -/
def jumpStatement (kind : Statement.Kind) (start : Position) : Parser Statement := do
  advance
  let label ← jumpLabel
  let _ ← expect ";"
  return { kind, label, span := ← spanFrom start }

/-- Reads an `assert` that began at the position. -/
def assertStatement (start : Position) : Parser Statement := do
  advance
  let condition ← expressionUntil [":", ";"]
  let detail ← whenAccepted ":" (expressionUntil [";"])
  let _ ← expect ";"
  return { kind := .assertion, expressions := condition :: detail.toList,
           span := ← spanFrom start }

/-- Reads a statement, by the token it begins with. -/
def statementBody (sub : Nested) : Parser Statement := do
  let start ← here
  let s ← state
  if s.sees "\x7b" then blockStatement sub
  else if s.sees ";" then emptyStatement start
  else if s.sees "if" then ifStatement sub start
  else if s.sees "while" then whileStatement sub start
  else if s.sees "do" then doStatement sub start
  else if s.sees "for" then forStatement sub start
  else if s.sees "switch" then switchStatement sub start
  else if s.sees "try" then tryStatement sub start
  else if s.seesPair "synchronized" "(" then synchronizedStatement sub start
  else if s.sees "return" then exitStatement .returnValue start
  else if s.sees "throw" then exitStatement .throwValue start
  else if s.sees "break" then jumpStatement .breakOut start
  else if s.sees "continue" then jumpStatement .continueLoop start
  else if s.sees "assert" then assertStatement start
  else declarationOrExpression sub start

end JavaOutline
