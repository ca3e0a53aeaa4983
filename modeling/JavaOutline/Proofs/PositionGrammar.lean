/-
**The grammar by position.**

Phrases, statements and declarations are read here by position, with every access checked.  The
functions are those of the parsers, one for one: decisions are made on the tokens at the next three
places, texts and expressions are slices of the list, and going back is setting the position.  Functions
that call each other are given the number of calls that may be open.

Main definitions:

* `Walk.modifiers`, `Walk.typeReference`, `Walk.declarators` — phrases;
* `Walk.statementBody`, `Walk.typeDeclBody`, `Walk.nestedAt` — statements and types;
* `Walk.block`, `Walk.compilationUnit` — what a body and what a whole source are read with.
-/

import JavaOutline.Proofs.PositionReading

set_option autoImplicit false

namespace JavaOutline.Walk

open JavaOutline.Parser (Turn)

/-! ### Names, annotations and modifiers -/

def qualifiedName : Walk String := do
  let first ← identifier
  let parts ← gather do
    let s ← window
    if s.sees "." && s.seesIdentifierSecond then
      advance
      return Turn.take (← identifier)
    else return Turn.stop
  return ".".intercalate (first :: parts)

def annotations : Walk Unit :=
  repeatWhile do
    let s ← window
    if s.seesAnnotation then
      advance
      let _ ← qualifiedName
      if ← sees "(" then
        let _ ← skipBalanced
      return true
    else return false

def modifiers : Walk (List String) :=
  gather do
    let s ← window
    match s.modifier?, s.sealedLength? with
    | some word, _ =>
        advance
        return Turn.take word
    | none, some n =>
        skip n
        return Turn.skip
    | none, none =>
        if s.seesAnnotation then
          annotations
          return Turn.skip
        else return Turn.stop

/-! ### Types -/

def dimensions : Walk Unit :=
  repeatWhile do
    let s ← window
    if s.seesPair "[" "]" then
      skip 2
      return true
    else return false

def typeSuffixes : Walk Unit :=
  repeatWhile do
    let s ← window
    if s.sees "<" then
      let _ ← skipBalanced
      return true
    else if s.sees "." && s.seesIdentifierSecond then
      skip 2
      return true
    else if s.seesPair "." "@" then
      advance
      annotations
      return true
    else return false

/-- Reads a type; its text is the slice from where it began. -/
def typeReference : Walk String := do
  annotations
  let start ← position
  let s ← window
  if s.rest.head?.any Token.isTypeStart || s.sees "?" then
    advance
    typeSuffixes
    dimensions
    textSince start
  else unexpected "type"

def typeList : Walk (List String) := commaSeparated typeReference

/-- Reads the type parameters ahead; their text is the slice from where they began. -/
def typeParameters : Walk (Option String) := do
  let start ← position
  let s ← window
  if s.sees "<" then
    let _ ← skipBalanced
    return some (← textSince start)
  else return none

/-! ### Expressions and variables -/

def parenthesized : Walk Expression := do
  let _ ← expect "("
  let expression ← expressionUntil [")"]
  let _ ← expect ")"
  return expression

def arguments : Walk (List Expression) := do
  let _ ← expect "("
  if ← accept ")" then return []
  else
    let found ← commaSeparated (expressionUntil [",", ")"])
    let _ ← expect ")"
    return found

def declarator (name : String) (start : Position) : Walk VariableDecl := do
  dimensions
  let initializer ← whenAccepted "=" (expressionUntil [",", ";"])
  return { name, initializer, span := ← spanFrom start }

/-- Reads the variables of a declaration; the first one began with the token just behind. -/
def declarators (firstName : String) : Walk (List VariableDecl) := do
  let pos ← position
  let name ← lift (Checked.item (← tokens) (pos - 1))
  let first ← declarator firstName name.span.start
  let others ← gather do
    if ← accept "," then
      let start ← here
      let name ← identifier
      return Turn.take (← declarator name start)
    else return Turn.stop
  return first :: others

def looksLikeLocalDeclaration : Walk Bool :=
  lookingPast typeReference fun s =>
    s.seesIdentifier && ["=", ";", ",", "[", ":"].any s.seesSecond

/-! ### Blocks -/

/-- The readings for what is nested one level deeper. -/
structure Nested where
  statement : Walk Statement
  typeDecl : List String → Position → Walk TypeDecl

def blockStatements (sub : Nested) : Walk (List Statement) :=
  gather do
    let s ← window
    if s.sees "\x7d" then return Turn.stop
    else if s.rest.isEmpty then
      reportUnexpected "'\x7d'"
      return Turn.stop
    else orSkip sub.statement

def block (sub : Nested) : Walk Block := do
  let opening ← expect "\x7b"
  let statements ← blockStatements sub
  let _ ← accept "\x7d"
  return { statements, span := ← spanFrom opening.start }

/-! ### Loops and switches -/

def forClause (terminator : String) : Walk (List Expression) := do
  if ← sees terminator then return []
  else
    let words ← modifiers
    let declares ← looksLikeLocalDeclaration
    if !words.isEmpty || declares then
      let _ ← typeReference
    return [← expressionUntil [terminator]]

/-- Reads a loop with `for`; its header is scanned by an index of its own first. -/
def forStatement (sub : Nested) (start : Position) : Walk Statement := do
  let _ ← expect "for"
  let _ ← expect "("
  let header ← position
  if ← isForEach then
    let _ ← modifiers
    let _ ← typeReference
    let name ← identifier
    let _ ← expect ":"
    let collection ← expressionUntil [")"]
    let _ ← expect ")"
    let body ← sub.statement
    return { kind := .forEach, label := some name, expressions := [collection],
             children := [body], span := ← spanFrom start }
  else
    moveTo header
    let first ← forClause ";"
    let _ ← expect ";"
    let condition ← forClause ";"
    let _ ← expect ";"
    let update ← forClause ")"
    let _ ← expect ")"
    let body ← sub.statement
    return { kind := .forLoop, expressions := first ++ condition ++ update, children := [body],
             span := ← spanFrom start }

def caseLabel : Walk (Option String × List Expression) := do
  if ← accept "case" then
    return (none, ← commaSeparated (expressionUntil [",", ":", "->"]))
  else if ← accept "default" then return (some "default", [])
  else unexpected "'case' or 'default'"

def caseStatements (sub : Nested) : Walk (List Statement) :=
  gather do
    let s ← window
    if s.sees "case" || s.sees "default" || s.sees "\x7d" then return Turn.stop
    else if s.rest.isEmpty then unexpected "'\x7d'"
    else orSkip sub.statement

def caseBody (sub : Nested) : Walk (List Statement) := do
  match ← whenAccepted "->" sub.statement with
  | some statement => return [statement]
  | none =>
      let _ ← expect ":"
      caseStatements sub

def switchCase (sub : Nested) : Walk Statement := do
  let start ← here
  let (label, expressions) ← caseLabel
  let children ← caseBody sub
  return { kind := .switchCase, label, expressions, children, span := ← spanFrom start }

def switchStatement (sub : Nested) (start : Position) : Walk Statement := do
  let _ ← expect "switch"
  let selector ← parenthesized
  let _ ← expect "\x7b"
  let cases ← gather do
    let s ← window
    if s.sees "\x7d" then return Turn.stop
    else if s.rest.isEmpty then unexpected "'\x7d'"
    else return Turn.take (← switchCase sub)
  let _ ← expect "\x7d"
  return { kind := .switch, expressions := [selector], children := cases,
           span := ← spanFrom start }

/-! ### Handlers -/

def resource : Walk Expression := do
  let _ ← modifiers
  if ← looksLikeLocalDeclaration then
    let _ ← typeReference
  expressionUntil [";", ")"]

def resources : Walk (List Expression) := do
  if ← accept "(" then
    let found ← gather do
      if ← sees ")" then return Turn.stop
      else
        let expression ← resource
        if ← accept ";" then return Turn.take expression else return Turn.final expression
    let _ ← expect ")"
    return found
  else return []

def catchClause (sub : Nested) : Walk Statement := do
  let start ← here
  advance
  let _ ← expect "("
  let _ ← modifiers
  let _ ← typeReference
  repeatWhile do
    return (← whenAccepted "|" typeReference).isSome
  let name ← identifier
  let _ ← expect ")"
  let body ← block sub
  return { kind := .catchBlock, label := some name, children := body.statements,
           span := ← spanFrom start }

def finallyClause (sub : Nested) : Walk (List Statement) := do
  let start ← here
  if ← accept "finally" then
    let body ← block sub
    return [{ kind := .finallyBlock, children := body.statements, span := ← spanFrom start }]
  else return []

def tryStatement (sub : Nested) (start : Position) : Walk Statement := do
  let _ ← expect "try"
  let expressions ← resources
  let body ← block sub
  let catches ← gather do
    if ← sees "catch" then return Turn.take (← catchClause sub) else return Turn.stop
  let finals ← finallyClause sub
  let handlers := catches ++ finals
  if handlers.isEmpty && expressions.isEmpty then unexpected "'catch' or 'finally'"
  else
    return { kind := .tryBlock, expressions,
             children :=
               { kind := .block, children := body.statements, span := body.span } :: handlers,
             span := ← spanFrom start }

/-! ### Statements -/

def localVariables (start : Position) : Walk Statement := do
  let _ ← typeReference
  let first ← identifier
  let found ← declarators first
  let _ ← expect ";"
  return { kind := .localVariable
           label := some (",".intercalate (found.map VariableDecl.name))
           expressions := found.filterMap VariableDecl.initializer
           span := ← spanFrom start }

def expressionStatement (start : Position) : Walk Statement := do
  let expression ← expressionUntil [";"]
  let _ ← expect ";"
  return { kind := .expression, expressions := [expression], span := ← spanFrom start }

/-- Reads a labeled statement, a local type, local variables or an expression; for the last of these
the position is set back. -/
def declarationOrExpression (sub : Nested) (start : Position) : Walk Statement := do
  let checkpoint ← position
  let place ← window
  if place.seesIdentifier && place.seesSecond ":" then
    let label ← identifier
    advance
    let body ← sub.statement
    return { kind := .labeled, label := some label, children := [body], span := ← spanFrom start }
  else
    let words ← modifiers
    let s ← window
    if s.seesTypeDecl then
      let decl ← sub.typeDecl words start
      return { kind := .localType, label := some decl.name, span := decl.span }
    else if ← looksLikeLocalDeclaration then localVariables start
    else if !words.isEmpty then unexpected "declaration"
    else
      moveTo checkpoint
      expressionStatement start

def blockStatement (sub : Nested) : Walk Statement := do
  let body ← block sub
  return { kind := .block, children := body.statements, span := body.span }

def emptyStatement (start : Position) : Walk Statement := do
  advance
  return { kind := .empty, span := ← spanFrom start }

def ifStatement (sub : Nested) (start : Position) : Walk Statement := do
  advance
  let condition ← parenthesized
  let thenBranch ← sub.statement
  let elseBranch ← whenAccepted "else" sub.statement
  return { kind := .ifThen, expressions := [condition],
           children := thenBranch :: elseBranch.toList, span := ← spanFrom start }

def whileStatement (sub : Nested) (start : Position) : Walk Statement := do
  advance
  let condition ← parenthesized
  let body ← sub.statement
  return { kind := .whileLoop, expressions := [condition], children := [body],
           span := ← spanFrom start }

def doStatement (sub : Nested) (start : Position) : Walk Statement := do
  advance
  let body ← sub.statement
  let _ ← expect "while"
  let condition ← parenthesized
  let _ ← expect ";"
  return { kind := .doLoop, expressions := [condition], children := [body],
           span := ← spanFrom start }

def synchronizedStatement (sub : Nested) (start : Position) : Walk Statement := do
  advance
  let lock ← parenthesized
  let body ← block sub
  return { kind := .synchronized, expressions := [lock], children := body.statements,
           span := ← spanFrom start }

def exitValue : Walk (List Expression) := do
  if ← sees ";" then return [] else return [← expressionUntil [";"]]

def exitStatement (kind : Statement.Kind) (start : Position) : Walk Statement := do
  advance
  let expressions ← exitValue
  let _ ← expect ";"
  return { kind, expressions, span := ← spanFrom start }

def jumpLabel : Walk (Option String) := do
  let s ← window
  if s.seesIdentifier then return some (← identifier) else return none

def jumpStatement (kind : Statement.Kind) (start : Position) : Walk Statement := do
  advance
  let label ← jumpLabel
  let _ ← expect ";"
  return { kind, label, span := ← spanFrom start }

def assertStatement (start : Position) : Walk Statement := do
  advance
  let condition ← expressionUntil [":", ";"]
  let detail ← whenAccepted ":" (expressionUntil [";"])
  let _ ← expect ";"
  return { kind := .assertion, expressions := condition :: detail.toList,
           span := ← spanFrom start }

/-- Reads a statement, by the token it begins with. -/
def statementBody (sub : Nested) : Walk Statement := do
  let start ← here
  let s ← window
  if s.sees "\x7b" then blockStatement sub
  else if s.sees ";" then emptyStatement start
  else if s.sees "if" then ifStatement sub start
  else if s.sees "while" then whileStatement sub start
  else if s.sees "do" then doStatement sub start
  else if s.sees "for" then forStatement sub start
  else if s.sees "switch" then switchStatement sub start
  else if s.sees "try" then tryStatement sub start
  else if s.seesPair "synchronized" "(" then synchronizedStatement sub start
  else if s.sees "return" then exitStatement .returnValue start
  else if s.sees "throw" then exitStatement .throwValue start
  else if s.sees "break" then jumpStatement .breakOut start
  else if s.sees "continue" then jumpStatement .continueLoop start
  else if s.sees "assert" then assertStatement start
  else declarationOrExpression sub start

/-! ### Members -/

def parameterName : Walk String := do
  if ← accept "this" then return "this"
  else
    let name ← identifier
    dimensions
    return name

def parameter : Walk Parameter := do
  let start ← here
  let modifiers ← modifiers
  let typeName ← typeReference
  let varargs ← accept "..."
  let name ← parameterName
  return { modifiers, typeName, name, varargs, span := ← spanFrom start }

def parameters : Walk (List Parameter) := do
  let _ ← expect "("
  if ← accept ")" then return []
  else
    let found ← commaSeparated parameter
    let _ ← expect ")"
    return found

def body (sub : Nested) : Walk Body := do
  if ← sees "\x7b" then
    if ← isDiet then return .unparsed (← skipBalanced)
    else return .parsed (← block sub)
  else unexpected "'\x7b'"

def methodBody (sub : Nested) : Walk Body := do
  if ← accept ";" then return .absent else body sub

def methodRest (sub : Nested) (head : MethodHead) : Walk Member := do
  let parameters ← parameters
  dimensions
  let throws ← whenAccepted "throws" typeList
  let _ ← whenAccepted "default" (expressionUntil [";"])
  let body ← methodBody sub
  return .method { modifiers := head.modifiers, typeParameters := head.typeParameters
                   returnType := head.returnType, name := head.name, parameters
                   throws := throws.getD [], body, span := ← spanFrom head.start }

def initializerMember (sub : Nested) (start : Position) : Walk Member := do
  let isStatic ← accept "static"
  let body ← body sub
  return .initializer { isStatic, body, span := ← spanFrom start }

def compactConstructor (sub : Nested) (head : MethodHead) : Walk Member := do
  let body ← body sub
  return .method { modifiers := head.modifiers, typeParameters := head.typeParameters
                   returnType := none, name := head.name, parameters := [], throws := [], body
                   span := ← spanFrom head.start }

def typedMember (sub : Nested) (modifiers : List String) (typeParameters : Option String)
    (start : Position) : Walk Member := do
  let typeName ← typeReference
  let name ← identifier
  if ← sees "(" then
    methodRest sub { modifiers, typeParameters, returnType := some typeName, name, start }
  else
    let found ← declarators name
    let _ ← expect ";"
    return .field { modifiers, typeName, declarators := found, span := ← spanFrom start }

def member (sub : Nested) (typeName : String) : Walk Member := do
  let start ← here
  let s ← window
  if s.sees "\x7b" || s.seesPair "static" "\x7b" then initializerMember sub start
  else
    let modifiers ← modifiers
    let s ← window
    if s.seesTypeDecl then return .type (← sub.typeDecl modifiers start)
    else
      let typeParameters ← typeParameters
      let s ← window
      let head := { modifiers, typeParameters, returnType := none, name := typeName, start }
      if s.seesName typeName && s.seesSecond "(" then
        advance
        methodRest sub head
      else if s.seesName typeName && s.seesSecond "\x7b" then
        advance
        compactConstructor sub head
      else typedMember sub modifiers typeParameters start

def members (sub : Nested) (typeName : String) : Walk (List Member) :=
  gather do
    let s ← window
    if s.sees "\x7d" then return Turn.stop
    else if s.rest.isEmpty then
      reportUnexpected "'\x7d'"
      return Turn.stop
    else if ← accept ";" then return Turn.skip
    else orSkip (member sub typeName)

/-! ### Types -/

def classBody (sub : Nested) (typeName : String) : Walk (List Member) := do
  let _ ← expect "\x7b"
  let found ← members sub typeName
  let _ ← accept "\x7d"
  return found

def constantBody (sub : Nested) (name : String) : Walk (Option TypeDecl) := do
  let start ← here
  if ← sees "\x7b" then
    let members ← classBody sub name
    return some { kind := .classType, name, members, span := ← spanFrom start }
  else return none

def constantArguments : Walk (List Expression) := do
  if ← sees "(" then arguments else return []

def enumConstant (sub : Nested) : Walk Member := do
  let start ← here
  let name ← identifier
  let arguments ← constantArguments
  let body ← constantBody sub name
  return .enumConstant { name, arguments, body, span := ← spanFrom start }

def constantsEnd : Walk Bool := do
  if ← accept ";" then return true else sees "\x7d"

def enumConstants (sub : Nested) : Walk (List Member) :=
  gather do
    annotations
    if ← constantsEnd then return Turn.stop
    else
      let constant ← enumConstant sub
      if ← accept "," then return Turn.take constant
      else if ← constantsEnd then return Turn.final constant
      else unexpected "',', ';' or '\x7d'"

def enumBody (sub : Nested) (typeName : String) : Walk (List Member) := do
  let _ ← expect "\x7b"
  let constants ← enumConstants sub
  let found ← members sub typeName
  let _ ← accept "\x7d"
  return constants ++ found

def typeBody (sub : Nested) (kind : TypeDecl.Kind) (typeName : String) : Walk (List Member) :=
  if kind = .enumType then enumBody sub typeName else classBody sub typeName

def typeKind : Walk TypeDecl.Kind := do
  let s ← window
  if s.sees "class" then
    advance
    return .classType
  else if s.sees "interface" then
    advance
    return .interfaceType
  else if s.sees "enum" then
    advance
    return .enumType
  else if s.seesPair "@" "interface" then
    skip 2
    return .annotationType
  else if s.seesName "record" then
    advance
    return .classType
  else unexpected "type declaration"

def supertypeClauses (kind : TypeDecl.Kind) : Walk (Option String × List String) := do
  if kind = .interfaceType then
    let extended ← whenAccepted "extends" typeList
    let implemented ← whenAccepted "implements" typeList
    return (none, extended.getD [] ++ implemented.getD [])
  else
    let superclass ← whenAccepted "extends" typeReference
    let implemented ← whenAccepted "implements" typeList
    return (superclass, implemented.getD [])

def permitsClause : Walk Unit := do
  let s ← window
  if s.seesName "permits" then
    advance
    let _ ← typeList

def typeDeclBody (sub : Nested) (modifiers : List String) (start : Position) : Walk TypeDecl := do
  let kind ← typeKind
  let name ← identifier
  let typeParameters ← typeParameters
  if ← sees "(" then
    let _ ← skipBalanced
  let (superclass, interfaces) ← supertypeClauses kind
  permitsClause
  let members ← typeBody sub kind name
  return { kind, name, modifiers, typeParameters, superclass, interfaces, members
           span := ← spanFrom start }

/-! ### Nesting -/

/-- The readings for statements and types when so many more calls may be opened. -/
def nestedAt : Nat → Nested
  | 0 => { statement := lift (.error .endless), typeDecl := fun _ _ => lift (.error .endless) }
  | n + 1 =>
      let sub := nestedAt n
      { statement := guarded (statementBody sub)
        typeDecl := fun modifiers start => guarded (typeDeclBody sub modifiers start) }

/-- Reads a block with as many open calls as are allowed. -/
def outerBlock : Walk Block := do
  block (nestedAt (← fuel))

/-! ### Compilation units -/

def packageDecl : Walk PackageDecl := do
  let opening ← expect "package"
  let name ← qualifiedName
  let _ ← expect ";"
  return { name, span := ← spanFrom opening.start }

def onDemandStar : Walk Bool := do
  let s ← window
  if s.seesPair "." "*" then
    skip 2
    return true
  else return false

def importDecl : Walk ImportDecl := do
  let opening ← expect "import"
  let isStatic ← accept "static"
  let name ← qualifiedName
  let onDemand ← onDemandStar
  let _ ← expect ";"
  return { name, isStatic, onDemand, span := ← spanFrom opening.start }

def packageClause : Walk (Option PackageDecl) := do
  if ← sees "package" then orRecover packageDecl else return none

def importClauses : Walk (List ImportDecl) :=
  gather do
    if ← sees "import" then
      match ← orRecover importDecl with
      | some decl => return Turn.take decl
      | none => return Turn.skip
    else return Turn.stop

def topLevelType : Walk TypeDecl := do
  let start ← here
  let modifiers ← modifiers
  (nestedAt (← fuel)).typeDecl modifiers start

def topLevelTypes : Walk (List TypeDecl) :=
  gather do
    let s ← window
    if s.rest.isEmpty then return Turn.stop
    else if ← accept ";" then return Turn.skip
    else orSkip topLevelType

/-- Reads a whole unit. -/
def compilationUnit : Walk Outline := do
  let start ← here
  orReport annotations
  let package ← packageClause
  let imports ← importClauses
  let types ← topLevelTypes
  return { package, imports, types, span := ← spanFrom start }

end JavaOutline.Walk
