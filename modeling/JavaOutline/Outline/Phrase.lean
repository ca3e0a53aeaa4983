/-
**The phrases of declarations and statements.**

Names, annotations, modifiers, type references and expressions are read here.  None of them nests
statements or types, so each is a plain parser.  Annotations are passed over, and an expression is
captured up to a token that stops it and then classified.

Main definitions:

* `qualifiedName`, `annotations`, `modifiers` — the beginnings of declarations;
* `typeReference`, `typeList`, `typeParameters` — types as they are written;
* `expressionLength`, `expressionUntil` — an expression up to a stop at its own bracket level;
* `declarators` — the variables of a field or of a local declaration;
* `looksLikeLocalDeclaration` — a type and a variable name are ahead.
-/

import JavaOutline.Outline.Classify
import JavaOutline.Outline.Parser

set_option autoImplicit false

namespace JavaOutline

open JavaOutline.Parser

/-! ### Names -/

/-- Reads a dotted name. -/
def qualifiedName : Parser String := do
  let first ← identifier
  let parts ← gather do
    let s ← state
    if s.sees "." && s.seesIdentifierSecond then
      advance
      return Turn.take (← identifier)
    else return Turn.stop
  return ".".intercalate (first :: parts)

/-! ### Annotations and modifiers -/

/-- Whether an annotation is ahead, and not the declaration of an annotation type. -/
def Parser.State.seesAnnotation (s : State) : Bool := s.sees "@" && !s.seesSecond "interface"

/-- Passes over the annotations ahead. -/
def annotations : Parser Unit :=
  repeatWhile do
    let s ← state
    if s.seesAnnotation then
      advance
      let _ ← qualifiedName
      if ← sees "(" then
        let _ ← bracketed "(" ")"
      return true
    else return false

/-- The keywords that are modifiers. -/
def modifierWords : List String :=
  ["public", "protected", "private", "static", "final", "abstract", "native", "synchronized",
   "transient", "volatile", "strictfp", "default"]

/-- The modifier ahead.  The label `default` of a switch is none. -/
def Parser.State.modifier? (s : State) : Option String :=
  match s.rest with
  | t :: _ =>
      if t.isKeyword && modifierWords.contains t.text then
        if t.text == "default" && (s.seesSecond ":" || s.seesSecond "->") then none
        else some t.text
      else none
  | [] => none

/-- How many tokens the modifier `sealed` or `non-sealed` ahead takes, which are no keywords. -/
def Parser.State.sealedLength? (s : State) : Option Nat :=
  match s.rest with
  | t :: next :: rest =>
      if t.isName "sealed" then
        if next.isAny ["class", "interface", "abstract", "public"] then some 1 else none
      else if t.isName "non" then
        if next.is "-" && rest.head?.any (·.text == "sealed") then some 3 else none
      else none
  | _ => none

/-- Reads the modifiers ahead and passes over the annotations between them. -/
def modifiers : Parser (List String) :=
  gather do
    let s ← state
    match s.modifier?, s.sealedLength? with
    | some word, _ =>
        advance
        return Turn.take word
    | none, some n =>
        skip n
        return Turn.skip
    | none, none =>
        if s.seesAnnotation then
          annotations
          return Turn.skip
        else return Turn.stop

/-! ### Types -/

/-- Passes over pairs of square brackets. -/
def dimensions : Parser Unit :=
  repeatWhile do
    let s ← state
    if s.seesPair "[" "]" then
      skip 2
      return true
    else return false

/-- Passes over type arguments and the further parts of a qualified type. -/
def typeSuffixes : Parser Unit :=
  repeatWhile do
    let s ← state
    if s.sees "<" then
      let _ ← bracketed "<" ">"
      return true
    else if s.sees "." && s.seesIdentifierSecond then
      skip 2
      return true
    else if s.seesPair "." "@" then
      advance
      annotations
      return true
    else return false

/-- Reads a type: a primitive type, a wildcard or a name, with type arguments and dimensions. -/
def typeReference : Parser String := do
  annotations
  let start ← state
  if start.rest.head?.any Token.isTypeStart || start.sees "?" then
    advance
    typeSuffixes
    dimensions
    let stop ← state
    return Token.join (stop.tokensSince start)
  else unexpected "type"

/-- Reads types with commas between them. -/
def typeList : Parser (List String) := commaSeparated typeReference

/-- Reads the type parameters ahead, if there are any. -/
def typeParameters : Parser (Option String) := do
  let start ← state
  if start.sees "<" then
    let _ ← bracketed "<" ">"
    let stop ← state
    return some (Token.join (stop.tokensSince start))
  else return none

/-! ### Expressions -/

/-- How many tokens an expression takes that one of `stops` ends, `depth` brackets being open.  A
closing bracket that the expression did not open ends it too. -/
def expressionLength (stops : List String) (depth : Nat) : List Token → Nat
  | [] => 0
  | t :: ts =>
      if depth = 0 ∧ t.isAny stops then 0
      else if t.opens then expressionLength stops (depth + 1) ts + 1
      else if t.closes then
        match depth with
        | 0 => 0
        | depth + 1 => expressionLength stops depth ts + 1
      else expressionLength stops depth ts + 1

/-- The expression that some tokens are. -/
def Expression.ofTokens (first : Token) (rest : List Token) : Expression where
  kind := .ofTokens first rest
  text := Token.join (first :: rest)
  span := ⟨first.span.start, (rest.getLastD first).span.stop⟩

/-- Reads an expression that one of `stops` ends. -/
def expressionUntil (stops : List String) : Parser Expression := do
  let s ← state
  let length := expressionLength stops 0 s.rest
  match s.rest.take length with
  | [] => unexpected "expression"
  | first :: rest =>
      skip length
      return Expression.ofTokens first rest

/-- Reads an expression in parentheses. -/
def parenthesized : Parser Expression := do
  let _ ← expect "("
  let expression ← expressionUntil [")"]
  let _ ← expect ")"
  return expression

/-- Reads the arguments of an invocation. -/
def arguments : Parser (List Expression) := do
  let _ ← expect "("
  if ← accept ")" then return []
  else
    let found ← commaSeparated (expressionUntil [",", ")"])
    let _ ← expect ")"
    return found

/-! ### Variables -/

/-- Reads what follows the name of a variable: dimensions and an initializer. -/
def declarator (name : String) (start : Position) : Parser VariableDecl := do
  dimensions
  let initializer ← whenAccepted "=" (expressionUntil [",", ";"])
  return { name, initializer, span := ← spanFrom start }

/-- Reads the variables of a declaration whose first name has just been read. -/
def declarators (firstName : String) : Parser (List VariableDecl) := do
  let s ← state
  let start := (s.last.map (·.span.start)).getD {}
  let first ← declarator firstName start
  let others ← gather do
    if ← accept "," then
      let start ← here
      let name ← identifier
      return Turn.take (← declarator name start)
    else return Turn.stop
  return first :: others

/-- Whether a type and the name of a variable are ahead. -/
def looksLikeLocalDeclaration : Parser Bool :=
  lookingPast typeReference fun s =>
    s.seesIdentifier && ["=", ";", ",", "[", ":"].any s.seesSecond

end JavaOutline
