/-
**Reading declarations and whole units.**

Types hold members, members hold bodies, and bodies hold statements and local types again.  The
recursion is on the number of levels that may still be opened: `nestedAt n` are the parsers for
what lies `n` levels above the limit, and they are built from those one level deeper.  At level
zero everything is nested too deeply.

Main definitions:

* `methodRest`, `member`, `typeBody`, `enumConstants`, `typeDeclBody` — members and types;
* `nestedAt` — statements and types by the number of levels left;
* `compilationUnit` — a whole unit;
* `Parse`, `Outline.parse` — the outline of a source, full or diet, with its errors.
-/

import JavaOutline.Outline.Statements

set_option autoImplicit false

namespace JavaOutline

open JavaOutline.Parser

/-! ### Methods -/

/-- Reads the name of a parameter; the receiver parameter is named `this`. -/
def parameterName : Parser String := do
  if ← accept "this" then return "this"
  else
    let name ← identifier
    dimensions
    return name

/-- Reads one parameter. -/
def parameter : Parser Parameter := do
  let start ← here
  let modifiers ← modifiers
  let typeName ← typeReference
  let varargs ← accept "..."
  let name ← parameterName
  return { modifiers, typeName, name, varargs, span := ← spanFrom start }

/-- Reads the parameters of a method. -/
def parameters : Parser (List Parameter) := do
  let _ ← expect "("
  if ← accept ")" then return []
  else
    let found ← commaSeparated parameter
    let _ ← expect ")"
    return found

/-- Reads the body of a method or an initializer; on a diet it is passed over. -/
def body (sub : Nested) : Parser Body := do
  if ← sees "\x7b" then
    if ← isDiet then return .unparsed (← bracketed "\x7b" "\x7d")
    else return .parsed (← block sub)
  else unexpected "'\x7b'"

/-- Reads a semicolon or a body. -/
def methodBody (sub : Nested) : Parser Body := do
  if ← accept ";" then return .absent else body sub

/-- What is known of a method before its parameters. -/
structure MethodHead where
  modifiers : List String
  typeParameters : Option String
  returnType : Option String
  name : String
  start : Position
deriving DecidableEq, Repr, Inhabited

/-- Reads a method from its parameters on. -/
def methodRest (sub : Nested) (head : MethodHead) : Parser Member := do
  let parameters ← parameters
  dimensions
  let throws ← whenAccepted "throws" typeList
  let _ ← whenAccepted "default" (expressionUntil [";"])
  let body ← methodBody sub
  return .method { modifiers := head.modifiers, typeParameters := head.typeParameters
                   returnType := head.returnType, name := head.name, parameters
                   throws := throws.getD [], body, span := ← spanFrom head.start }

/-! ### Members -/

/-- Reads an initializer that began at the position. -/
def initializerMember (sub : Nested) (start : Position) : Parser Member := do
  let isStatic ← accept "static"
  let body ← body sub
  return .initializer { isStatic, body, span := ← spanFrom start }

/-- Reads the constructor of a record without parameters, behind its name. -/
def compactConstructor (sub : Nested) (head : MethodHead) : Parser Member := do
  let body ← body sub
  return .method { modifiers := head.modifiers, typeParameters := head.typeParameters
                   returnType := none, name := head.name, parameters := [], throws := [], body
                   span := ← spanFrom head.start }

/-- Reads a method or a field, from its type on. -/
def typedMember (sub : Nested) (modifiers : List String) (typeParameters : Option String)
    (start : Position) : Parser Member := do
  let typeName ← typeReference
  let name ← identifier
  if ← sees "(" then
    methodRest sub { modifiers, typeParameters, returnType := some typeName, name, start }
  else
    let found ← declarators name
    let _ ← expect ";"
    return .field { modifiers, typeName, declarators := found, span := ← spanFrom start }

/-- Reads a member of the type `typeName`. -/
def member (sub : Nested) (typeName : String) : Parser Member := do
  let start ← here
  let s ← state
  if s.sees "\x7b" || s.seesPair "static" "\x7b" then initializerMember sub start
  else
    let modifiers ← modifiers
    let s ← state
    if s.seesTypeDecl then return .type (← sub.typeDecl modifiers start)
    else
      let typeParameters ← typeParameters
      let s ← state
      let head := { modifiers, typeParameters, returnType := none, name := typeName, start }
      if s.seesName typeName && s.seesSecond "(" then
        advance
        methodRest sub head
      else if s.seesName typeName && s.seesSecond "\x7b" then
        advance
        compactConstructor sub head
      else typedMember sub modifiers typeParameters start

/-- Reads members up to the closing brace, which stays ahead; the end of the text is reported. -/
def members (sub : Nested) (typeName : String) : Parser (List Member) :=
  gather do
    let s ← state
    if s.sees "\x7d" then return Turn.stop
    else if s.rest.isEmpty then
      reportUnexpected "'\x7d'"
      return Turn.stop
    else if ← accept ";" then return Turn.skip
    else orSkip (member sub typeName)

/-! ### Types -/

/-- Reads the body of a type that is no enum. -/
def classBody (sub : Nested) (typeName : String) : Parser (List Member) := do
  let _ ← expect "\x7b"
  let found ← members sub typeName
  let _ ← accept "\x7d"
  return found

/-- Reads the class body of an enum constant, if there is one. -/
def constantBody (sub : Nested) (name : String) : Parser (Option TypeDecl) := do
  let start ← here
  if ← sees "\x7b" then
    let members ← classBody sub name
    return some { kind := .classType, name, members, span := ← spanFrom start }
  else return none

/-- Reads the arguments of an enum constant, if there are any. -/
def constantArguments : Parser (List Expression) := do
  if ← sees "(" then arguments else return []

/-- Reads one enum constant. -/
def enumConstant (sub : Nested) : Parser Member := do
  let start ← here
  let name ← identifier
  let arguments ← constantArguments
  let body ← constantBody sub name
  return .enumConstant { name, arguments, body, span := ← spanFrom start }

/-- Whether the list of enum constants ends here; a semicolon is read. -/
def constantsEnd : Parser Bool := do
  if ← accept ";" then return true else sees "\x7d"

/-- Reads the constants of an enum. -/
def enumConstants (sub : Nested) : Parser (List Member) :=
  gather do
    annotations
    if ← constantsEnd then return Turn.stop
    else
      let constant ← enumConstant sub
      if ← accept "," then return Turn.take constant
      else if ← constantsEnd then return Turn.final constant
      else unexpected "',', ';' or '\x7d'"

/-- Reads the body of an enum. -/
def enumBody (sub : Nested) (typeName : String) : Parser (List Member) := do
  let _ ← expect "\x7b"
  let constants ← enumConstants sub
  let found ← members sub typeName
  let _ ← accept "\x7d"
  return constants ++ found

/-- Reads the body of a type. -/
def typeBody (sub : Nested) (kind : TypeDecl.Kind) (typeName : String) : Parser (List Member) :=
  if kind = .enumType then enumBody sub typeName else classBody sub typeName

/-- Reads the words that introduce a type.  A record is a class. -/
def typeKind : Parser TypeDecl.Kind := do
  let s ← state
  if s.sees "class" then
    advance
    return .classType
  else if s.sees "interface" then
    advance
    return .interfaceType
  else if s.sees "enum" then
    advance
    return .enumType
  else if s.seesPair "@" "interface" then
    skip 2
    return .annotationType
  else if s.seesName "record" then
    advance
    return .classType
  else unexpected "type declaration"

/-- Reads the supertypes of a type: the superclass and the interfaces.  What an interface extends
are interfaces. -/
def supertypeClauses (kind : TypeDecl.Kind) : Parser (Option String × List String) := do
  if kind = .interfaceType then
    let extended ← whenAccepted "extends" typeList
    let implemented ← whenAccepted "implements" typeList
    return (none, extended.getD [] ++ implemented.getD [])
  else
    let superclass ← whenAccepted "extends" typeReference
    let implemented ← whenAccepted "implements" typeList
    return (superclass, implemented.getD [])

/-- Passes over the subtypes that a sealed type permits. -/
def permitsClause : Parser Unit := do
  let s ← state
  if s.seesName "permits" then
    advance
    let _ ← typeList

/-- Reads a type declaration behind its modifiers; it began at the position. -/
def typeDeclBody (sub : Nested) (modifiers : List String) (start : Position) :
    Parser TypeDecl := do
  let kind ← typeKind
  let name ← identifier
  let typeParameters ← typeParameters
  if ← sees "(" then
    let _ ← bracketed "(" ")"
  let (superclass, interfaces) ← supertypeClauses kind
  permitsClause
  let members ← typeBody sub kind name
  return { kind, name, modifiers, typeParameters, superclass, interfaces, members
           span := ← spanFrom start }

/-! ### The levels of nesting -/

/-- The parsers for statements and types when so many more levels may be opened. -/
def nestedAt : Nat → Nested
  | 0 => { statement := guarded tooDeep, typeDecl := fun _ _ => guarded tooDeep }
  | n + 1 =>
      let sub := nestedAt n
      { statement := guarded (statementBody sub)
        typeDecl := fun modifiers start => guarded (typeDeclBody sub modifiers start) }

/-- The parsers for statements and types at the outermost level. -/
def outermost : Nested := nestedAt maxNesting

/-! ### Compilation units -/

/-- Reads a package declaration. -/
def packageDecl : Parser PackageDecl := do
  let opening ← expect "package"
  let name ← qualifiedName
  let _ ← expect ";"
  return { name, span := ← spanFrom opening.start }

/-- Reads the star of an import on demand, if it is ahead. -/
def onDemandStar : Parser Bool := do
  let s ← state
  if s.seesPair "." "*" then
    skip 2
    return true
  else return false

/-- Reads an import declaration. -/
def importDecl : Parser ImportDecl := do
  let opening ← expect "import"
  let isStatic ← accept "static"
  let name ← qualifiedName
  let onDemand ← onDemandStar
  let _ ← expect ";"
  return { name, isStatic, onDemand, span := ← spanFrom opening.start }

/-- Reads the package declaration, if there is one; an error is passed over. -/
def packageClause : Parser (Option PackageDecl) := do
  if ← sees "package" then orRecover packageDecl else return none

/-- Reads the import declarations; errors are passed over. -/
def importClauses : Parser (List ImportDecl) :=
  gather do
    if ← sees "import" then
      match ← orRecover importDecl with
      | some decl => return Turn.take decl
      | none => return Turn.skip
    else return Turn.stop

/-- Reads a type at the top level. -/
def topLevelType : Parser TypeDecl := do
  let start ← here
  let modifiers ← modifiers
  outermost.typeDecl modifiers start

/-- Reads the types of a unit; errors are passed over. -/
def topLevelTypes : Parser (List TypeDecl) :=
  gather do
    let s ← state
    if s.rest.isEmpty then return Turn.stop
    else if ← accept ";" then return Turn.skip
    else orSkip topLevelType

/-- Reads a whole unit. -/
def compilationUnit : Parser Outline := do
  let start ← here
  orReport annotations
  let package ← packageClause
  let imports ← importClauses
  let types ← topLevelTypes
  return { package, imports, types, span := ← spanFrom start }

/-! ### Sources -/

/-- What parsing a source finds. -/
structure Parse where
  /-- The outline. -/
  outline : Outline
  /-- The offsets of the line separators. -/
  separators : List Nat
  /-- The errors, lexical errors first. -/
  errors : List SyntaxError
deriving DecidableEq

/-- The setting for the tokens of a scan. -/
def Scan.setting (scan : Scan) (diet : Bool) : Setting where
  diet := diet
  finish := scan.finish
  total := scan.tokens.length

/-- Parses a source; on a diet the bodies are passed over. -/
def Outline.parse (source : String) (diet : Bool) : Parse :=
  let scan := Scan.ofText source
  let lexical := scan.errors.map SyntaxError.lexical
  match compilationUnit (scan.setting diet) { rest := scan.tokens } with
  | .ok outline s =>
      { outline, separators := scan.separators, errors := lexical ++ s.errors.toList }
  | .fail error s =>
      { outline := {}, separators := scan.separators
        errors := lexical ++ (s.report error).errors.toList }

end JavaOutline
