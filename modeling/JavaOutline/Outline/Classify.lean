/-
**The sort of an expression.**

An expression is kept as the tokens it is written with, and its sort is read off the tokens at its
top level: those that stand inside no bracket and in no list of type arguments.

Main definitions:

* `typeArgumentsLength?` — the length of a list of type arguments at the head of some tokens;
* `TopToken`, `topLevel` — the tokens at the top level, each with the token written before it;
* `hasBinaryOperator` — some operator stands between two operands;
* `looksLikeCast` — a parenthesis holds a type and an operand follows it;
* `Expression.Kind.ofTokens` — the sort of an expression.
-/

import JavaOutline.Outline
import JavaOutline.Token

set_option autoImplicit false

namespace JavaOutline

/-! ### Type arguments -/

/-- A token that may stand in a list of type arguments, apart from its angle brackets. -/
def isTypeArgumentPart (t : Token) : Bool :=
  t.isTypeStart || t.isAny [",", ".", "?", "extends", "super", "[", "]", "&"]

/-- How many tokens a list of type arguments takes, `depth` lists being open before its first
token; `none` if the tokens are no such list. -/
def typeArgumentsLength? (depth : Nat) : List Token → Option Nat
  | [] => none
  | t :: ts =>
      if t.is "<" then (typeArgumentsLength? (depth + 1) ts).map (· + 1)
      else if t.is ">" then
        if depth ≤ 1 then some 1 else (typeArgumentsLength? (depth - 1) ts).map (· + 1)
      else if isTypeArgumentPart t then (typeArgumentsLength? depth ts).map (· + 1)
      else none

/-! ### The top level -/

/-- A token at the top level of an expression. -/
structure TopToken where
  /-- Its place among the tokens of the expression. -/
  index : Nat
  /-- The token written before it. -/
  previous : Option Token
  /-- The token itself. -/
  token : Token
deriving DecidableEq, Repr, Inhabited

/-- The tokens at the top level: outermost brackets, and what stands in no bracket and in no list
of type arguments.  `index` tokens have been passed, `depth` brackets are open, and the next `skip`
tokens belong to a list of type arguments. -/
def topLevelFrom (index depth skip : Nat) (previous : Option Token) : List Token → List TopToken
  | [] => []
  | t :: ts =>
      match skip with
      | skip + 1 => topLevelFrom (index + 1) depth skip (some t) ts
      | 0 =>
          if t.opens then
            let later := topLevelFrom (index + 1) (depth + 1) 0 (some t) ts
            if depth = 0 then ⟨index, previous, t⟩ :: later else later
          else if t.closes then
            let later := topLevelFrom (index + 1) (depth - 1) 0 (some t) ts
            if depth ≤ 1 then ⟨index, previous, t⟩ :: later else later
          else if depth = 0 then
            match (if t.is "<" then typeArgumentsLength? 0 (t :: ts) else none) with
            | some n => topLevelFrom (index + 1) 0 (n - 1) (some t) ts
            | none => ⟨index, previous, t⟩ :: topLevelFrom (index + 1) 0 0 (some t) ts
          else topLevelFrom (index + 1) depth 0 (some t) ts

/-- The tokens at the top level of an expression. -/
def topLevel (tokens : List Token) : List TopToken :=
  topLevelFrom 0 0 0 none tokens

/-! ### Operators -/

/-- The operators that assign. -/
def assignmentOperators : List String :=
  ["=", "+=", "-=", "*=", "/=", "%=", "&=", "|=", "^=", "<<=", ">>>="]

/-- The operators that join two operands. -/
def binaryOperators : List String :=
  ["||", "&&", "|", "^", "&", "==", "!=", "<=", ">=", "<<", "+", "-", "*", "/", "%",
   "instanceof", "<", ">"]

/-- The operators that stand in front of an operand. -/
def unaryOperators : List String := ["!", "~", "-", "+", "++", "--"]

/-- Whether a top-level token assigns.  A shift that assigns is written as two tokens that
touch. -/
def TopToken.assigns (top : TopToken) : Bool :=
  top.token.isAny assignmentOperators ||
    (top.token.is ">=" && top.previous.any fun before =>
      before.is ">" && before.span.stop.offset == top.token.span.start.offset)

/-- Whether an operator behind this token is a sign in front of an operand. -/
def Token.awaitsOperand (t : Token) : Bool :=
  t.kind == .operator && !t.isAny [")", "]", "\x7d", "++", "--"]

/-- Whether some top-level operator joins two operands, `before` being the top-level token in
front. -/
def hasBinaryOperator (before : Option Token) : List TopToken → Bool
  | [] => false
  | top :: tops =>
      (top.token.isAny binaryOperators && before.any fun b => !b.awaitsOperand) ||
        hasBinaryOperator (some top.token) tops

/-! ### Casts -/

/-- A token that may stand in the parenthesis of a cast. -/
def isCastPart (t : Token) : Bool :=
  t.isTypeStart || t.isAny [".", "<", ">", ",", "?", "[", "]", "&", "extends", "super"]

/-- A token that the operand of a cast may begin with. -/
def startsOperand (t : Token) : Bool :=
  t.isIdentifier || t.kind == .literal || t.isAny ["(", "this", "new", "!", "~"]

/-- Whether the tokens of a parenthesis and the token behind it make a cast. -/
def looksLikeCast (inner : List Token) (next : Option Token) : Bool :=
  !inner.isEmpty && inner.all isCastPart && next.any startsOperand

/-! ### The sort -/

/-- The sort of an expression that begins with a parenthesis, if the parenthesis decides it. -/
def parenthesisKind? (tokens : List Token) (tops : List TopToken) : Option Expression.Kind :=
  match tops.find? fun top => 0 < top.index && top.token.is ")" with
  | none => none
  | some close =>
      if close.index + 1 = tokens.length then some .parenthesized
      else if looksLikeCast ((tokens.take close.index).drop 1) (tokens[close.index + 1]?) then
        some .cast
      else none

/-- The sort of an expression of one token. -/
def singleTokenKind (t : Token) : Expression.Kind :=
  match t.kind with
  | .literal => .literal
  | .identifier => .name
  | .keyword | .operator => if t.isAny ["this", "super"] then .name else .other

/-- The sort of an expression that no operator decides, by its last tokens. -/
def endingKind (tokens : List Token) : Expression.Kind :=
  match tokens.reverse with
  | last :: rest =>
      if last.is ")" then .methodInvocation
      else if tokens.all fun t => t.isIdentifier || t.isAny [".", "this", "super"] then .name
      else if last.isIdentifier && rest.head?.any (·.is ".") then .fieldAccess
      else .other
  | [] => .other

/-- The sort of the expression that begins with `first`. -/
def Expression.Kind.ofTokens (first : Token) (rest : List Token) : Expression.Kind :=
  let tokens := first :: rest
  let tops := topLevel tokens
  let last := rest.getLastD first
  let has := fun (text : String) => tops.any fun top => top.token.is text
  if has "->" then .lambda
  else if tops.any TopToken.assigns then .assignment
  else if has "?" then .conditional
  else if hasBinaryOperator none tops then .binary
  else if first.is "new" then
    if has "[" && !has "(" then .arrayCreation else .objectCreation
  else
    match (if first.is "(" then parenthesisKind? tokens tops else none) with
    | some kind => kind
    | none =>
        if first.isAny unaryOperators || last.isAny ["++", "--"] then .unary
        else if rest.isEmpty then singleTokenKind first
        else endingKind tokens

end JavaOutline
